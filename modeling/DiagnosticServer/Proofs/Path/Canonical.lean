import DiagnosticServer.Proofs.Path.Normal

/-!
# The normal form is canonical

A normal form can also be made without a stack, by writing and erasing at the end of a path under
construction: what `..` does there is decided by the last component of that path, and it is done by
going to its parent or by pushing onto it (`absorb`). The path always spells the stack
(`absorb_ofComponents`), so both ways give the same path. Joining a path and a relative one adds the
components of the second to those of the first, but for a `.` at their start
(`exists_components_push`), and so it does not matter whether the first is normalised before.
-/

namespace DiagnosticServer.Path

variable {path tail : Path} {stack all : List Component} {c : Component} {absolute : Bool}

/-! ## Normalising in place -/

/-- The path under construction after one more component. A `.` is skipped; `..` takes a name off
the end, vanishes behind the root, and is written anywhere else; all else is written. -/
def absorb (path : Path) : Component → Path
  | .current => path
  | .parent =>
    match path.components.getLast? with
    | some (.name _) => path.parent.getD path
    | some .root => path
    | _ => path.push Component.parent.octets
  | component => path.push component.octets

/-- A name among the components of a path is one. -/
theorem IsSpelling.isName {name : Octets} (spelling : IsSpelling all) (among : .name name ∈ all) :
    isName name = true := by
  cases all with
  | nil => cases among
  | cons first rest =>
    rcases List.mem_cons.1 among with rfl | later
    · exact spelling.1
    · exact spelling.2 _ later

/-- What a component does to the path is what it does to the stack that the path spells. -/
theorem absorb_ofComponents (spelling : IsSpelling stack.reverse)
    (fits : c = .current ∨ c.isInner = true) :
    absorb (ofComponents stack.reverse) c = ofComponents (settle stack c).reverse := by
  have written {d : Component} (inner : d.isInner = true) :
      (ofComponents stack.reverse).push d.octets = ofComponents (d :: stack).reverse := by
    rw [List.reverse_cons]
    exact push_ofComponents spelling inner
  cases c with
  | root => exact absurd (fits.resolve_left nofun) nofun
  | current => rfl
  | name octets => exact written (fits.resolve_left nofun)
  | parent =>
    rw [absorb, components_ofComponents spelling, List.getLast?_reverse]
    -- The top of the stack is the last component of the path.
    cases stack with
    | nil => exact written rfl
    | cons top below =>
      cases top with
      | root => rfl
      | current => exact written rfl
      | parent => exact written rfl
      | name octets =>
        have proper : isName octets = true :=
          spelling.isName (List.mem_reverse.2 List.mem_cons_self)
        rw [List.reverse_cons] at spelling ⊢
        simp only [List.head?_cons, parent_ofComponents spelling proper, Option.getD_some, settle]

/-- What several components do to the path is what they do to the stack that it spells. -/
theorem foldl_absorb (settled : IsSettled absolute stack)
    (fits : ∀ c ∈ all, c = .current ∨ c.isInner = true) :
    all.foldl absorb (ofComponents stack.reverse) =
      ofComponents (all.foldl settle stack).reverse := by
  induction all generalizing stack with
  | nil => rfl
  | cons c rest ih =>
    have first := fits c List.mem_cons_self
    rw [List.foldl_cons, absorb_ofComponents settled.isSpelling first, List.foldl_cons]
    exact ih (settled.settle first) fun d among => fits d (List.mem_cons_of_mem _ among)

/-- The normal form of a path is what its components make of the empty path. -/
theorem foldl_absorb_components (path : Path) :
    path.components.foldl absorb ⟨[]⟩ = path.normalize := by
  unfold normalize
  cases absolute : path.isAbsolute with
  | true =>
    obtain ⟨rest, listed, inner⟩ := exists_components_of_isAbsolute absolute
    rw [listed]
    exact foldl_absorb (.absolute [] nofun) fun c among => .inr (inner c among)
  | false => exact foldl_absorb (.relative [] 0 nofun) (isInner_of_mem_components absolute)

example : (Path.components ⟨"/src/./main/../java/A.java"⟩).foldl absorb ⟨[]⟩ =
    ⟨"/src/java/A.java"⟩ := by decide +kernel

/-! ## Joining paths -/

/-- The components of a path are those of its pieces, the first of which is the root if it is empty
and not alone. -/
theorem components_of_pieces {first : Octets} {rest : List Octets}
    (cut : path.pieces = first :: rest) (fuller : first = [] → rest ≠ []) :
    path.components = (opening first).toList ++ rest.filterMap Component.ofPiece? := by
  unfold components
  rw [cut]
  simp only [leading_eq_opening fuller]

/-- What is written behind a separator adds its pieces to the components before it. -/
theorem components_append_separator (before after : Octets) :
    (ofOctets (before ++ slash :: after)).components =
      (ofOctets (before ++ [slash])).components ++
        (after.splitOn slash).filterMap Component.ofPiece? := by
  cases cut : before.splitOn slash with
  | nil => exact absurd cut (List.splitOn_ne_nil _ _)
  | cons first rest =>
    have pieces_eq (behind : Octets) :
        (ofOctets (before ++ slash :: behind)).pieces =
          first :: (rest ++ behind.splitOn slash) := by
      rw [pieces, List.splitOn_append_cons_self, cut, List.cons_append]
    have fuller (behind : Octets) : first = [] → rest ++ behind.splitOn slash ≠ [] :=
      fun _ empty => List.splitOn_ne_nil slash behind (List.append_eq_nil_iff.1 empty).2
    rw [components_of_pieces (pieces_eq after) (fuller after),
      components_of_pieces (pieces_eq []) (fuller []), List.filterMap_append,
      List.filterMap_append, List.append_assoc, List.append_assoc]
    rfl

/-- A separator at the end of a spelling adds no component, if the spelling is not empty. -/
theorem components_append_end {octets : Octets} (filled : octets ≠ []) :
    (ofOctets (octets ++ [slash])).components = (ofOctets octets).components := by
  cases cut : octets.splitOn slash with
  | nil => exact absurd cut (List.splitOn_ne_nil _ _)
  | cons first rest =>
    have short : (ofOctets octets).pieces = first :: rest := cut
    have long : (ofOctets (octets ++ [slash])).pieces = first :: (rest ++ [[]]) := by
      rw [pieces, List.splitOn_append_cons_self, cut]
      rfl
    have fuller : first = [] → rest ≠ [] := by
      rintro rfl rfl
      have glued : [slash].intercalate (octets.splitOn slash) = octets :=
        List.intercalate_splitOn slash
      rw [cut] at glued
      exact filled glued.symm
    rw [components_of_pieces short fuller, components_of_pieces long (by simp),
      List.filterMap_append]
    exact congrArg _ (List.append_nil _)

/-- The components of a relative path are those of its pieces, behind a `.` if it starts with
one. -/
theorem components_of_relative (relative : path.isAbsolute = false) :
    path.components = path.pieces.filterMap Component.ofPiece? ∨
      path.components = .current :: path.pieces.filterMap Component.ofPiece? := by
  obtain ⟨first, rest, cut, listed, -⟩ := path.exists_pieces
  rw [isAbsolute, listed] at relative
  rw [listed, cut, List.filterMap_cons]
  unfold leading at relative ⊢
  by_cases empty : first = []
  · subst empty
    cases rest with
    | nil => exact .inl rfl
    | cons next more => cases relative
  · rw [if_neg empty]
    by_cases dot : first = [dot]
    · subst dot
      exact .inr rfl
    · rw [if_neg dot]
      left
      cases Component.ofPiece? first <;> rfl

/-- The components of a path joined with a relative one are those of both, but for a `.` at the
start of the second. -/
theorem exists_components_push (path : Path) (relative : tail.isAbsolute = false) :
    ∃ rest, (path.push tail.octets).components = path.components ++ rest ∧
      (tail.components = rest ∨ tail.components = .current :: rest) := by
  have unrooted : ¬ tail.octets.head? = some slash := fun head => by
    rw [isAbsolute_iff.2 head] at relative
    cases relative
  unfold push
  rw [if_neg unrooted]
  by_cases empty : path.octets = []
  · -- The joined path is the second one.
    have blank : path.components = [] := by
      rw [components, pieces, empty]
      rfl
    exact ⟨tail.components, by rw [if_pos (.inl empty), empty, blank]; rfl, .inl rfl⟩
  · refine ⟨tail.pieces.filterMap Component.ofPiece?, ?_, components_of_relative relative⟩
    by_cases ended : path.octets.getLast? = some slash
    · obtain ⟨before, spelled⟩ := List.getLast?_eq_some_iff.1 ended
      have whole : path = ofOctets (before ++ [slash]) := congrArg ofOctets spelled
      rw [if_pos (.inr ended), spelled, List.append_assoc, List.singleton_append,
        components_append_separator, ← whole]
      rfl
    · rw [if_neg (not_or.2 ⟨empty, ended⟩), components_append_separator,
        components_append_end empty]
      rfl

/-- A path joined with a relative one leaves the stack that the second leaves on top of the
first. -/
theorem foldl_settle_push (path : Path) (relative : tail.isAbsolute = false) :
    (path.push tail.octets).components.foldl settle [] =
      tail.components.foldl settle (path.components.foldl settle []) := by
  obtain ⟨rest, joined, same | dotted⟩ := exists_components_push path relative
  · rw [joined, List.foldl_append, same]
  · rw [joined, List.foldl_append, dotted, List.foldl_cons, settle]

/-- It does not matter whether a path is normalised before it is joined with a relative one. -/
theorem normalize_push (path : Path) (relative : tail.isAbsolute = false) :
    (path.push tail.octets).normalize = (path.normalize.push tail.octets).normalize := by
  rw [normalize, foldl_settle_push path relative, ← foldl_settle_components_normalize path,
    ← foldl_settle_push path.normalize relative, ← normalize]

/-! ## The laws of normal forms -/

/-- The normal form of a path is what its components make of the empty path, and it has the
components that a scan of those of the path leaves on a stack. An absolute path has the root and
names only, and a relative one any number of `..` and then names only. The normal form is its own
normal form, and a path can be normalised before it is joined with a relative one. -/
theorem normal_form_canonical (path : Path) :
    path.normalize = path.components.foldl absorb ⟨[]⟩ ∧
    path.normalize.components = (path.components.foldl settle []).reverse ∧
    (path.isAbsolute = true → path.normalize.isAbsolute = true ∧
      ∃ names : List Octets, path.normalize.components = .root :: names.map .name) ∧
    (path.isAbsolute = false → ∃ ups, ∃ names : List Octets,
      path.normalize.components = List.replicate ups .parent ++ names.map .name) ∧
    path.normalize.normalize = path.normalize ∧
    ∀ tail : Path, tail.isAbsolute = false →
      (path.push tail.octets).normalize = (path.normalize.push tail.octets).normalize := by
  have settled := isSettled_components path
  refine ⟨(foldl_absorb_components path).symm, components_normalize path, fun absolute => ?_,
    fun relative => ?_, normalize_normalize path, fun tail relative => normalize_push path relative⟩
  · rw [absolute] at settled
    refine ⟨(isAbsolute_normalize path).trans absolute, ?_⟩
    rw [components_normalize]
    exact settled.exists_names
  · rw [relative] at settled
    rw [components_normalize]
    exact settled.exists_ups_names

/-- An absolute path that climbs above the root, and a relative one that climbs above its start, in
their normal forms and joined with another that climbs. -/
theorem climbing_paths_canonical :
    Path.isAbsolute ⟨"/a/..//../b/."⟩ = true ∧
    (∃ names : List Octets, (Path.normalize ⟨"/a/..//../b/."⟩).components =
      .root :: names.map .name) ∧
    Path.isAbsolute ⟨"./../a//b/../../../x"⟩ = false ∧
    Path.normalize ⟨"./../a//b/../../../x"⟩ = ⟨"../../x"⟩ ∧
    (∃ ups, ∃ names : List Octets, (Path.normalize ⟨"./../a//b/../../../x"⟩).components =
      List.replicate ups .parent ++ names.map .name) ∧
    Path.isAbsolute ⟨"./../../y/"⟩ = false ∧
    (Path.push ⟨"./../a//b/../../../x"⟩ "./../../y/").normalize =
      (Path.push ⟨"../../x"⟩ "./../../y/").normalize := by
  have above : Path.isAbsolute ⟨"/a/..//../b/."⟩ = true := by decide +kernel
  have before : Path.isAbsolute ⟨"./../a//b/../../../x"⟩ = false := by decide +kernel
  have other : Path.isAbsolute ⟨"./../../y/"⟩ = false := by decide +kernel
  have normal : Path.normalize ⟨"./../a//b/../../../x"⟩ = ⟨"../../x"⟩ := by decide +kernel
  obtain ⟨-, -, rooted, -, -, -⟩ := normal_form_canonical ⟨"/a/..//../b/."⟩
  obtain ⟨-, -, -, climbing, -, joined⟩ := normal_form_canonical ⟨"./../a//b/../../../x"⟩
  exact ⟨above, (rooted above).2, before, normal, climbing before, other,
    normal ▸ joined ⟨"./../../y/"⟩ other⟩

end DiagnosticServer.Path
