import DiagnosticServer.Proofs.Path.Normal

/-!
# Ways through a file system

Following pieces is described by a relation with one rule for each thing that can happen on the way
(`Leads`), which holds exactly of what `walk` finds (`walk_eq_ok_iff`). A way is found however many
links may be followed beyond those it needs, and can be cut in two where every place may be asked
for; under different guards there may be a way or none, but not two that lead to different places
(`Leads.unique`). The places that ways lead to are solid: directories that the process may search
lead down to them, and no link stands on that way down (`Leads.solid`). So the path of such a place
leads to it or nowhere, and it does lead there if it is not too long.
-/

namespace DiagnosticServer

namespace FileSystem

variable {files : FileSystem} {guard : Guard} {used links : Nat} {here there : Location}
  {piece : Octets} {rest pieces : List Octets}

/-! ## The rules of the way -/

/-- Where the target of a link is looked up. -/
def linkStart (target : Path) (here : Location) : Location :=
  if target.octets.head? = some slash then [] else here

/-- Whether a piece is the name of an entry. -/
def IsEntry (piece : Octets) : Prop := piece ≠ [] ∧ piece ≠ [dot] ∧ piece ≠ [dot, dot]

/-- A directory stands at a place, and the process gets past a piece there: it may look up names, or
the piece is not looked up. -/
def Opens (files : FileSystem) (guard : Guard) (here : Location) (piece : Octets) : Prop :=
  ∃ rights, files.node? here = some (.directory rights) ∧
    (rights.search = true ∨ guard.passes piece = true)

/-- Pieces lead from one place to another, by way of places that may be asked for and by following
that many links. -/
inductive Leads (files : FileSystem) (guard : Guard) :
    Nat → Location → List Octets → Location → Prop where
  /-- No piece is left. -/
  | arrives (here : Location) : Leads files guard 0 here [] here
  /-- An empty piece or `.` stays in a directory. -/
  | stays {used : Nat} {here there : Location} {piece : Octets} {rest : List Octets}
      (opens : Opens files guard here piece) (silent : piece = [] ∨ piece = [dot])
      (on : Leads files guard used here rest there) :
      Leads files guard used here (piece :: rest) there
  /-- A `..` leads from a directory to the one above it. -/
  | rises {used : Nat} {here there : Location} {rest : List Octets}
      (opens : Opens files guard here [dot, dot])
      (on : Leads files guard used here.tail rest there) :
      Leads files guard used here ([dot, dot] :: rest) there
  /-- The name of anything but a link leads to it. -/
  | enters {used : Nat} {here there : Location} {piece : Octets} {rest : List Octets}
      {node : Node} (opens : Opens files guard here piece) (entry : IsEntry piece)
      (short : piece.length ≤ nameLimit) (found : files.node? (piece :: here) = some node)
      (direct : ∀ target, node ≠ .link target)
      (allowed : guard.admits (piece :: here) rest = true)
      (on : Leads files guard used (piece :: here) rest there) :
      Leads files guard used here (piece :: rest) there
  /-- The name of a link leads to where its target leads. -/
  | jumps {used : Nat} {here there : Location} {piece : Octets} {rest : List Octets}
      {target : Path} (opens : Opens files guard here piece) (entry : IsEntry piece)
      (short : piece.length ≤ nameLimit) (found : files.node? (piece :: here) = some (.link target))
      (allowed : guard.admits (piece :: here) [] = true)
      (on : Leads files guard used (linkStart target here) (target.pieces ++ rest) there) :
      Leads files guard (used + 1) here (piece :: rest) there

/-- What is found by following links in a way that is one is a way. -/
theorem leads_of_walkWith {follow : Location → List Octets → Except FileError Location}
    (follows : ∀ here pieces there, follow here pieces = .ok there →
      ∃ used < links, Leads files guard used here pieces there)
    (found : files.walkWith guard follow here pieces = .ok there) :
    ∃ used ≤ links, Leads files guard used here pieces there := by
  -- The induction is on the pieces as written. Those of a link's target are left to `follow`.
  induction pieces generalizing here with
  | nil =>
    cases found
    exact ⟨0, Nat.zero_le _, .arrives _⟩
  | cons piece rest ih =>
    rw [walkWith] at found
    simp only at found
    split at found
    · rename_i rights stands
      split at found
      · cases found
      · rename_i permitted
        have opens : Opens files guard here piece := ⟨rights, stands, by
          simpa [Bool.or_eq_true, Classical.or_iff_not_imp_left] using permitted⟩
        split at found
        · rename_i silent
          obtain ⟨used, few, on⟩ := ih found
          exact ⟨used, few, .stays opens silent on⟩
        · rename_i loud
          rw [not_or] at loud
          split at found
          · rename_i dots
            subst dots
            obtain ⟨used, few, on⟩ := ih found
            exact ⟨used, few, .rises opens on⟩
          · rename_i dots
            have entry : IsEntry piece := ⟨loud.1, loud.2, dots⟩
            split at found
            · cases found
            · rename_i long
              have short := Nat.le_of_not_gt long
              split at found
              · cases found
              · rename_i target link
                split at found
                · rename_i allowed
                  obtain ⟨used, few, on⟩ := follows _ _ _ found
                  exact ⟨used + 1, few, .jumps opens entry short link allowed on⟩
                · cases found
              · rename_i node direct some
                split at found
                · rename_i allowed
                  obtain ⟨used, few, on⟩ := ih found
                  exact ⟨used, few, .enters opens entry short some direct allowed on⟩
                · cases found
    · cases found
    · cases found

/-- What walking finds is a way. -/
theorem leads_of_walk (found : files.walk guard links here pieces = .ok there) :
    ∃ used ≤ links, Leads files guard used here pieces there := by
  induction links generalizing here pieces there with
  | zero => exact leads_of_walkWith (fun _ _ _ refused => by cases refused) found
  | succ links ih =>
    refine leads_of_walkWith (fun here pieces there follows => ?_) found
    obtain ⟨used, few, on⟩ := ih follows
    exact ⟨used, Nat.lt_succ_of_le few, on⟩

/-- Walking is walking with some way to follow links. -/
theorem walk_eq_walkWith (files : FileSystem) (guard : Guard) (links : Nat) :
    ∃ follow, files.walk guard links = files.walkWith guard follow := by
  cases links with
  | zero => exact ⟨_, rfl⟩
  | succ links => exact ⟨_, rfl⟩

/-- Where the process gets past a piece, the test for that is passed. -/
theorem Opens.exists_permitted (opens : Opens files guard here piece) : ∃ rights,
    files.node? here = some (.directory rights) ∧
      ¬ (!rights.search && !guard.passes piece) = true := by
  obtain ⟨rights, stands, permitted⟩ := opens
  refine ⟨rights, stands, ?_⟩
  rcases permitted with search | passes
  · simp [search]
  · simp [passes]

/-- A way is found if enough links may be followed. -/
theorem Leads.walk_eq (leads : Leads files guard used here pieces there) (enough : used ≤ links) :
    files.walk guard links here pieces = .ok there := by
  induction leads generalizing links with
  | arrives here =>
    obtain ⟨follow, same⟩ := walk_eq_walkWith files guard links
    rw [same]
    rfl
  | stays opens silent on ih =>
    obtain ⟨rights, stands, permitted⟩ := opens.exists_permitted
    have next := ih enough
    obtain ⟨follow, same⟩ := walk_eq_walkWith files guard links
    rw [same] at next ⊢
    simp only [walkWith, stands, if_neg permitted, if_pos silent, next]
  | rises opens on ih =>
    obtain ⟨rights, stands, permitted⟩ := opens.exists_permitted
    have next := ih enough
    obtain ⟨follow, same⟩ := walk_eq_walkWith files guard links
    rw [same] at next ⊢
    have loud : ¬ ([dot, dot] = ([] : Octets) ∨ [dot, dot] = [dot]) := by decide
    simp only [walkWith, stands, if_neg permitted, if_neg loud, if_true, next]
  | @enters _ _ _ _ _ node opens entry short found direct allowed on ih =>
    obtain ⟨rights, stands, permitted⟩ := opens.exists_permitted
    have next := ih enough
    obtain ⟨follow, same⟩ := walk_eq_walkWith files guard links
    rw [same] at next ⊢
    have loud := not_or.2 ⟨entry.1, entry.2.1⟩
    cases node with
    | link target => exact absurd rfl (direct target)
    | directory =>
      simp only [walkWith, stands, if_neg permitted, if_neg loud, if_neg entry.2.2,
        if_neg (Nat.not_lt.2 short), found, if_pos allowed, next]
    | file =>
      simp only [walkWith, stands, if_neg permitted, if_neg loud, if_neg entry.2.2,
        if_neg (Nat.not_lt.2 short), found, if_pos allowed, next]
  | jumps opens entry short found allowed on ih =>
    -- One of the links that may be followed is this one.
    cases links with
    | zero => cases enough
    | succ links =>
      obtain ⟨rights, stands, permitted⟩ := opens.exists_permitted
      have next := ih (Nat.le_of_succ_le_succ enough)
      have loud := not_or.2 ⟨entry.1, entry.2.1⟩
      unfold linkStart at next
      simp only [walk, walkWith, stands, if_neg permitted, if_neg loud, if_neg entry.2.2,
        if_neg (Nat.not_lt.2 short), found, if_pos allowed, next]

/-- Walking finds exactly the ways that need no more links than may be followed. -/
theorem walk_eq_ok_iff : files.walk guard links here pieces = .ok there ↔
    ∃ used ≤ links, Leads files guard used here pieces there :=
  ⟨leads_of_walk, fun ⟨_, few, leads⟩ => leads.walk_eq few⟩

/-- Every location may be asked for, and `.` and `..` are not looked up. -/
def lenient : Guard := ⟨fun _ _ => true, false⟩

/-- Where the process gets past a piece under some guard, it does so under the lenient one. -/
theorem Opens.lenient (opens : Opens files guard here piece) :
    Opens files lenient here piece := by
  obtain ⟨rights, stands, permitted⟩ := opens
  refine ⟨rights, stands, permitted.imp_right fun passes => ?_⟩
  unfold Guard.passes at passes ⊢
  revert passes
  cases guard.looksUpDots <;> simp +contextual [FileSystem.lenient]

/-- A way under some guard is one under the lenient one. -/
theorem Leads.lenient (leads : Leads files guard used here pieces there) :
    Leads files lenient used here pieces there := by
  induction leads with
  | arrives here => exact .arrives here
  | stays opens silent _ ih => exact .stays opens.lenient silent ih
  | rises opens _ ih => exact .rises opens.lenient ih
  | enters opens entry short found direct _ _ ih =>
    exact .enters opens.lenient entry short found direct rfl ih
  | jumps opens entry short found _ _ ih => exact .jumps opens.lenient entry short found rfl ih

/-- Pieces lead to one place, whatever is guarded. -/
theorem Leads.unique {other : Guard} {more : Nat} {elsewhere : Location}
    (leads : Leads files guard used here pieces there)
    (also : Leads files other more here pieces elsewhere) : there = elsewhere := by
  have one := leads.lenient.walk_eq (Nat.le_max_left used more)
  have two := also.lenient.walk_eq (Nat.le_max_right used more)
  exact Except.ok.inj (one.symm.trans two)

/-- Where every place may be asked for, two ways are put together. -/
theorem Leads.append {more : Nat} {middle : Location}
    (leads : Leads files anywhere used here pieces middle)
    (on : Leads files anywhere more middle rest there) :
    Leads files anywhere (used + more) here (pieces ++ rest) there := by
  induction leads with
  | arrives here => simpa using on
  | stays opens silent _ ih => exact .stays opens silent (ih on)
  | rises opens _ ih => exact .rises opens (ih on)
  | enters opens entry short found direct _ _ ih =>
    exact .enters opens entry short found direct rfl (ih on)
  | jumps opens entry short found _ _ ih =>
    rw [Nat.add_right_comm]
    exact .jumps opens entry short found rfl (by simpa using ih on)

/-- Where every place may be asked for, a way is cut in two. -/
theorem Leads.split (leads : Leads files anywhere used here (pieces ++ rest) there) :
    ∃ first more middle, used = first + more ∧ Leads files anywhere first here pieces middle ∧
      Leads files anywhere more middle rest there := by
  generalize whole : pieces ++ rest = all at leads
  induction leads generalizing pieces with
  | arrives here =>
    obtain ⟨rfl, rfl⟩ := List.append_eq_nil_iff.1 whole
    exact ⟨0, 0, here, rfl, .arrives here, .arrives here⟩
  | stays opens silent on ih =>
    cases pieces with
    | nil =>
      obtain rfl : rest = _ := whole
      exact ⟨0, _, _, (Nat.zero_add _).symm, .arrives _, .stays opens silent on⟩
    | cons piece before =>
      obtain ⟨rfl, rfl⟩ := List.cons.inj whole
      obtain ⟨first, more, middle, sum, way, on⟩ := ih rfl
      exact ⟨first, more, middle, sum, .stays opens silent way, on⟩
  | rises opens on ih =>
    cases pieces with
    | nil =>
      obtain rfl : rest = _ := whole
      exact ⟨0, _, _, (Nat.zero_add _).symm, .arrives _, .rises opens on⟩
    | cons piece before =>
      obtain ⟨rfl, rfl⟩ := List.cons.inj whole
      obtain ⟨first, more, middle, sum, way, on⟩ := ih rfl
      exact ⟨first, more, middle, sum, .rises opens way, on⟩
  | enters opens entry short found direct allowed on ih =>
    cases pieces with
    | nil =>
      obtain rfl : rest = _ := whole
      exact ⟨0, _, _, (Nat.zero_add _).symm, .arrives _,
        .enters opens entry short found direct allowed on⟩
    | cons piece before =>
      obtain ⟨rfl, rfl⟩ := List.cons.inj whole
      obtain ⟨first, more, middle, sum, way, on⟩ := ih rfl
      exact ⟨first, more, middle, sum, .enters opens entry short found direct rfl way, on⟩
  | jumps opens entry short found allowed on ih =>
    cases pieces with
    | nil =>
      obtain rfl : rest = _ := whole
      exact ⟨0, _, _, (Nat.zero_add _).symm, .arrives _,
        .jumps opens entry short found allowed on⟩
    | cons piece before =>
      -- The pieces of the target come before the rest of the first part.
      obtain ⟨rfl, rfl⟩ := List.cons.inj whole
      obtain ⟨first, more, middle, sum, way, on⟩ := ih (List.append_assoc _ _ _)
      exact ⟨first + 1, more, middle, by omega, .jumps opens entry short found rfl way, on⟩

/-! ## Solid places -/

/-- Directories that the process may search lead down to a place, and no link stands on the way or
at the place itself. -/
inductive Solid (files : FileSystem) : Location → Prop where
  /-- The root is a place. -/
  | root : Solid files []
  /-- So is what a directory that is one holds. -/
  | holds {here : Location} {name : Octets} {rights : Rights} {node : Node}
      (above : Solid files here) (stands : files.node? here = some (.directory rights))
      (search : rights.search = true) (proper : isName name = true)
      (found : files.node? (name :: here) = some node) (direct : ∀ target, node ≠ .link target) :
      Solid files (name :: here)

/-- The directory above a solid place is solid. -/
theorem Solid.tail (solid : Solid files here) : Solid files here.tail := by
  cases solid with
  | root => exact .root
  | holds above => exact above

/-- The names that lead to a solid place are names. -/
theorem Solid.names (solid : Solid files here) : ∀ name ∈ here, isName name = true := by
  induction solid with
  | root => exact List.forall_mem_nil _
  | holds _ _ _ proper _ _ ih => exact List.forall_mem_cons.2 ⟨proper, ih⟩

/-- A directory above the current one is a directory. -/
theorem node?_of_suffix (above : here <:+ files.current) :
    files.node? here = some (.directory {}) :=
  if_pos (List.isSuffixOf_iff_suffix.2 above)

/-- The root is a directory. -/
theorem node?_root (files : FileSystem) : files.node? [] = some (.directory {}) :=
  node?_of_suffix List.nil_suffix

/-- The current directory is solid. -/
theorem solid_current (files : FileSystem) : Solid files files.current := by
  -- The directories above the current one are there by definition, down to it one by one.
  have all : ∀ place, place <:+ files.current → Solid files place := by
    intro place above
    induction place with
    | nil => exact .root
    | cons name rest ih =>
      have inside := (List.suffix_cons name rest).trans above
      have proper := List.all_eq_true.1 files.current_names name (above.subset List.mem_cons_self)
      exact .holds (ih inside) (node?_of_suffix inside) rfl proper (node?_of_suffix above) nofun
  exact all _ List.suffix_rfl

/-- A piece that is an entry and holds no separator is a name. -/
theorem IsEntry.isName (entry : IsEntry piece) (clean : slash ∉ piece) : isName piece = true :=
  isName_iff.2 ⟨entry.1, entry.2.1, entry.2.2, clean⟩

/-- The process gets past an entry only in a directory that it may search. -/
theorem Opens.search (opens : Opens files guard here piece) (entry : IsEntry piece) :
    ∃ rights, files.node? here = some (.directory rights) ∧ rights.search = true := by
  obtain ⟨rights, stands, search | passes⟩ := opens
  · exact ⟨rights, stands, search⟩
  · simp [Guard.passes, entry.1, entry.2.1, entry.2.2] at passes

/-- Ways lead from solid places to solid places. -/
theorem Leads.solid (leads : Leads files guard used here pieces there)
    (clean : ∀ piece ∈ pieces, slash ∉ piece) (solid : Solid files here) : Solid files there := by
  induction leads with
  | arrives here => exact solid
  | stays _ _ _ ih => exact ih (fun p among => clean p (List.mem_cons_of_mem _ among)) solid
  | rises _ _ ih => exact ih (fun p among => clean p (List.mem_cons_of_mem _ among)) solid.tail
  | enters opens entry _ found direct _ _ ih =>
    obtain ⟨rights, stands, search⟩ := opens.search entry
    exact ih (fun p among => clean p (List.mem_cons_of_mem _ among))
      (.holds solid stands search (entry.isName (clean _ List.mem_cons_self)) found direct)
  | jumps _ _ _ _ _ _ ih =>
    refine ih (fun p among => ?_) ?_
    · rcases List.mem_append.1 among with inside | after
      · exact Path.slash_not_mem_of_mem_pieces inside
      · exact clean p (List.mem_cons_of_mem _ after)
    · unfold linkStart
      split
      · exact .root
      · exact solid

/-- Ways from a place with short names lead to places with short names. -/
theorem Leads.short (leads : Leads files guard used here pieces there)
    (short : ∀ name ∈ here, name.length ≤ nameLimit) :
    ∀ name ∈ there, name.length ≤ nameLimit := by
  induction leads with
  | arrives here => exact short
  | stays _ _ _ ih => exact ih short
  | rises _ _ ih => exact ih fun name among => short name (List.mem_of_mem_tail among)
  | enters _ _ small _ _ _ _ ih => exact ih (List.forall_mem_cons.2 ⟨small, short⟩)
  | jumps _ _ _ _ _ _ ih =>
    refine ih ?_
    unfold linkStart
    split
    · exact List.forall_mem_nil _
    · exact short

/-! ## Paths of solid places -/

/-- A name is an entry. -/
theorem isEntry_of_isName {name : Octets} (proper : isName name = true) : IsEntry name :=
  have ⟨empty, dot, dots, _⟩ := isName_iff.1 proper
  ⟨empty, dot, dots⟩

/-- A silent piece is passed over. -/
theorem Leads.of_silent (silent : piece = [] ∨ piece = [dot])
    (leads : Leads files guard used here (piece :: rest) there) :
    Leads files guard used here rest there := by
  cases leads with
  | stays _ _ on => exact on
  | rises => exact absurd silent (by decide)
  | enters _ entry => exact absurd silent (not_or.2 ⟨entry.1, entry.2.1⟩)
  | jumps _ entry => exact absurd silent (not_or.2 ⟨entry.1, entry.2.1⟩)

/-- A `..` leads to the directory above. -/
theorem Leads.of_dots (leads : Leads files guard used here ([dot, dot] :: rest) there) :
    Leads files guard used here.tail rest there := by
  cases leads with
  | stays _ silent => exact absurd silent (by decide)
  | rises _ on => exact on
  | enters _ entry => exact absurd rfl entry.2.2
  | jumps _ entry => exact absurd rfl entry.2.2

/-- An entry that is no link is entered. -/
theorem Leads.of_entry {node : Node} (entry : IsEntry piece)
    (found : files.node? (piece :: here) = some node) (direct : ∀ target, node ≠ .link target)
    (leads : Leads files guard used here (piece :: rest) there) :
    Leads files guard used (piece :: here) rest there := by
  cases leads with
  | stays _ silent => exact absurd silent (not_or.2 ⟨entry.1, entry.2.1⟩)
  | rises => exact absurd rfl entry.2.2
  | enters _ _ _ _ _ _ on => exact on
  | jumps _ _ _ link => exact absurd (Option.some.inj (found.symm.trans link)) (direct _)

/-- From the root the names of a solid place lead to that place. -/
theorem Solid.leads_on (solid : Solid files here)
    (leads : Leads files guard used [] (here.reverse ++ rest) there) :
    Leads files guard used here rest there := by
  -- No name on the way down is that of a link, so that the rules leave no choice.
  induction solid generalizing rest with
  | root => exact leads
  | holds above _ _ proper found direct ih =>
    rw [List.reverse_cons, List.append_assoc] at leads
    exact (ih leads).of_entry (isEntry_of_isName proper) found direct

/-- Nothing but names comes after a place on the way down to a solid place, so that no place is
asked for as a directory. -/
theorem wantsDirectory_of_entries (entries : ∀ piece ∈ rest, IsEntry piece) :
    wantsDirectory rest = false := by
  cases rest with
  | nil => rfl
  | cons piece more =>
    obtain ⟨empty, dot, dots⟩ := entries piece List.mem_cons_self
    simp [wantsDirectory, empty, dot, dots]

/-- The names of a solid place lead there if they are short, and if every place on the way down may
be asked for when only names come after it. -/
theorem Solid.leads (solid : Solid files here)
    (short : ∀ name ∈ here, name.length ≤ nameLimit)
    (allowed : ∀ place rest, place <:+ here → (∀ piece ∈ rest, IsEntry piece) →
      guard.admits place rest = true)
    (entries : ∀ piece ∈ rest, IsEntry piece) (on : Leads files guard used here rest there) :
    Leads files guard used [] (here.reverse ++ rest) there := by
  induction solid generalizing rest with
  | root => exact on
  | @holds here name rights node above stands search proper found direct ih =>
    rw [List.reverse_cons, List.append_assoc]
    have entry := isEntry_of_isName proper
    refine ih (fun other among => short other (List.mem_cons_of_mem _ among))
      (fun place rest inside => allowed place rest (inside.trans (List.suffix_cons _ _)))
      (List.forall_mem_cons.2 ⟨entry, entries⟩) ?_
    exact .enters ⟨rights, stands, .inl search⟩ entry (short name List.mem_cons_self) found direct
      (allowed _ rest List.suffix_rfl entries) on

/-- The path of a location is spelled with a separator before each name. -/
theorem octets_pathOf (location : Location) :
    (pathOf location).octets = slash :: [slash].intercalate location.reverse := by
  simp [pathOf, Path.ofComponents, Function.comp_def, Path.Component.octets]

/-- The pieces of the path of a location are an empty one and the names. The path of the root has
one more empty piece. -/
theorem pieces_pathOf (names : ∀ name ∈ here, isName name = true) :
    (pathOf here).pieces = [] :: if here = [] then [[]] else here.reverse := by
  rw [Path.pieces, octets_pathOf, List.splitOn_cons_eq_if_modifyHead, if_pos BEq.rfl]
  split
  · rename_i root
    subst root
    rfl
  · rename_i inner
    rw [List.splitOn_intercalate slash (fun name among => ?_) (by simpa using inner)]
    exact (isName_iff.1 (names name (List.mem_reverse.1 among))).2.2.2

/-- The path of a location leads where its names lead. -/
theorem leads_pathOf_iff (names : ∀ name ∈ here, isName name = true) :
    Leads files guard used [] (pathOf here).pieces there ↔
      Leads files guard used [] here.reverse there := by
  have stay : ∀ rest, Leads files guard used [] ([] :: rest) there ↔
      Leads files guard used [] rest there := fun rest =>
    ⟨.of_silent (.inl rfl), .stays ⟨_, node?_root files, .inl rfl⟩ (.inl rfl)⟩
  rw [pieces_pathOf names, stay]
  split
  · rename_i root
    subst root
    exact stay []
  · rfl

/-! ## Following paths -/

variable {path : Path}

/-- A path is followed exactly if it has no null octet, is not empty, and its pieces lead somewhere,
from the root or from the current directory. -/
theorem follow_eq_ok_iff : files.follow guard path = .ok there ↔
    hasNull path = false ∧ path.octets ≠ [] ∧ ∃ used ≤ linkLimit, Leads files guard used
      (if path.octets.head? = some slash then [] else files.current) path.pieces there := by
  unfold follow
  split
  · rename_i null
    simp [null]
  · rename_i null
    split
    · rename_i empty
      simp [empty]
    · rename_i filled
      simp [walk_eq_ok_iff, null, filled]

/-- A path leads to a solid place. -/
theorem solid_of_follow (found : files.follow guard path = .ok there) : Solid files there := by
  obtain ⟨-, -, used, -, leads⟩ := follow_eq_ok_iff.1 found
  refine leads.solid (fun piece => Path.slash_not_mem_of_mem_pieces) ?_
  split
  · exact .root
  · exact solid_current files

/-- A path leads to one place, whatever is guarded. -/
theorem follow_unique {other : Guard} {elsewhere : Location}
    (found : files.follow guard path = .ok there)
    (also : files.follow other path = .ok elsewhere) : there = elsewhere := by
  obtain ⟨-, -, used, -, leads⟩ := follow_eq_ok_iff.1 found
  obtain ⟨-, -, more, -, leadsToo⟩ := follow_eq_ok_iff.1 also
  exact leads.unique leadsToo

/-- Opening by a path goes where following the path goes, unless the path is too long. -/
theorem resolve_eq_ok_iff : files.resolve path = .ok there ↔
    files.follow anywhere path = .ok there ∧ path.octets.length < pathLimit := by
  unfold resolve
  cases null : hasNull path with
  | true => simp [follow, null]
  | false =>
    simp only [Bool.not_false, Bool.true_and, decide_eq_true_eq, ge_iff_le]
    split
    · rename_i long
      simp [Nat.not_lt.2 long]
    · rename_i long
      simp [Nat.not_le.1 long]

/-- A path without links is that of a solid place. -/
theorem canonicalize_eq_ok_iff {canonical : Path} : files.canonicalize path = .ok canonical ↔
    ∃ place, files.follow withinLimit path = .ok place ∧ pathOf place = canonical := by
  unfold canonicalize
  cases files.follow withinLimit path with
  | error cause => simp [Except.map]
  | ok place => simp [Except.map]

/-- The path of a solid place leads there or nowhere. -/
theorem Solid.follow_pathOf (solid : Solid files here)
    (found : files.follow guard (pathOf here) = .ok there) : there = here := by
  obtain ⟨-, -, used, -, leads⟩ := follow_eq_ok_iff.1 found
  rw [octets_pathOf, List.head?_cons, if_pos rfl, leads_pathOf_iff solid.names] at leads
  have on : Leads files guard used here [] there := solid.leads_on (by rwa [List.append_nil])
  cases on with
  | arrives => rfl

/-- The path of a solid place stays as it is, or cannot be followed. -/
theorem Solid.canonicalize_pathOf {canonical : Path} (solid : Solid files here)
    (found : files.canonicalize (pathOf here) = .ok canonical) : canonical = pathOf here := by
  obtain ⟨place, followed, rfl⟩ := canonicalize_eq_ok_iff.1 found
  rw [solid.follow_pathOf followed]

/-! ## Short paths -/

/-- The path of a place is no shorter than the paths of the directories above it. -/
theorem length_pathOf_le {place : Location} (above : place <:+ here) :
    (pathOf place).octets.length ≤ (pathOf here).octets.length := by
  rw [octets_pathOf, octets_pathOf]
  refine (List.Sublist.cons_cons slash ?_).length_le
  exact Text.intercalate_sublist (List.reverse_sublist.2 above.sublist)

/-- The path of a solid place leads there if it and its names are not too long, and it has no null
octet. -/
theorem Solid.follow_of_short (solid : Solid files here)
    (short : ∀ name ∈ here, name.length ≤ nameLimit)
    (allowed : ∀ place rest, place <:+ here → (∀ piece ∈ rest, IsEntry piece) →
      guard.admits place rest = true)
    (named : hasNull (pathOf here) = false) : files.follow guard (pathOf here) = .ok here := by
  refine follow_eq_ok_iff.2 ⟨named, by simp [octets_pathOf], 0, Nat.zero_le _, ?_⟩
  rw [octets_pathOf, List.head?_cons, if_pos rfl, leads_pathOf_iff solid.names]
  have way := solid.leads short allowed (List.forall_mem_nil _) (.arrives here)
  rwa [List.append_nil] at way

/-- A place whose path is not too long may be asked for on the way down to it. -/
theorem withinLimit_of_suffix {place : Location} (fits : (pathOf here).octets.length < pathLimit)
    (above : place <:+ here) (entries : ∀ piece ∈ rest, IsEntry piece) :
    withinLimit.admits place rest = true := by
  simp only [withinLimit, wantsDirectory_of_entries entries, Bool.false_eq_true, if_false,
    decide_eq_true_eq]
  exact Nat.lt_of_le_of_lt (length_pathOf_le above) fits

end FileSystem

end DiagnosticServer
