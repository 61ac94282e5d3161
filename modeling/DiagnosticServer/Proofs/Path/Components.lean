import Mathlib.Data.List.Induction
import Mathlib.Data.List.Basic
import Mathlib.Logic.Basic
import Mathlib.Tactic.Conv
import DiagnosticServer.FileSystem.Basic
import DiagnosticServer.Path.Parent
import DiagnosticServer.Proofs.Text.Pieces

/-!
# Paths through their components

A path keeps its spelling, but what is said of it goes by components. Here the operations that work
on the spelling are read as operations on components: a list of components that can be those of a
path is spelled and read back unchanged (`components_ofComponents`), pushing a component spells it
behind the others (`push_ofComponents`), so that pushing names lists them (`components_ofNames`),
the parent of a path drops the last component (`components_parent`), and an ancestor drops several
(`components_ancestor`).
-/

namespace DiagnosticServer

/-- A name is a piece of a path that stands for itself. -/
theorem isName_iff {octets : Octets} : isName octets = true ↔
    octets ≠ [] ∧ octets ≠ [dot] ∧ octets ≠ [dot, dot] ∧ slash ∉ octets := by
  simp only [isName, Bool.and_eq_true, decide_eq_true_eq, Bool.not_eq_true', List.contains_eq_mem,
    decide_eq_false_iff_not, ne_eq, and_assoc]

namespace Path

/-! ## Lists of components -/

namespace Component

/-- Whether a component can stand after the first place of a path. -/
def isInner : Component → Bool
  | root => false
  | current => false
  | parent => true
  | name octets => isName octets

/-- Whether a component can stand at the first place of a path. -/
def isFirst : Component → Bool
  | root => true
  | current => true
  | parent => true
  | name octets => isName octets

variable {c : Component} {piece : Octets}

/-- What can stand inside a path can start one. -/
theorem isFirst_of_isInner (inner : c.isInner = true) : c.isFirst = true := by
  cases c <;> simp_all [isInner, isFirst]

/-- The root does not stand inside a path. -/
theorem ne_root (inner : c.isInner = true) : c ≠ .root := by
  rintro rfl
  cases inner

/-- Only the root is written with a separator. -/
theorem slash_not_mem_octets (first : c.isFirst = true) (h : c ≠ .root) : slash ∉ c.octets := by
  cases c with
  | root => contradiction
  | current => decide
  | parent => decide
  | name octets => exact (isName_iff.1 first).2.2.2

/-- What stands inside a path is read back from how it is written. -/
theorem ofPiece?_octets (inner : c.isInner = true) : ofPiece? c.octets = some c := by
  cases c with
  | root => cases inner
  | current => cases inner
  | parent => decide
  | name octets =>
    obtain ⟨empty, dot, dots, -⟩ := isName_iff.1 inner
    simp [ofPiece?, Component.octets, empty, dot, dots]

/-- A piece stands for nothing if and only if it is silent. -/
theorem ofPiece?_eq_none_iff : ofPiece? piece = none ↔ isSilent piece = true := by
  unfold ofPiece? isSilent
  split <;> simp_all
  split <;> simp

/-- The component of a piece is written as the piece. -/
theorem octets_of_ofPiece? (found : ofPiece? piece = some c) : c.octets = piece := by
  unfold ofPiece? at found
  split at found
  · cases found
  · split at found <;> cases found
    · rename_i dots
      exact dots.symm
    · rfl

/-- The component of a piece without separators can stand inside a path. -/
theorem isInner_of_ofPiece? (found : ofPiece? piece = some c) (clean : slash ∉ piece) :
    c.isInner = true := by
  unfold ofPiece? at found
  split at found
  · cases found
  · rename_i loud
    rw [not_or] at loud
    split at found <;> cases found
    · rfl
    · rename_i dots
      exact isName_iff.2 ⟨loud.1, loud.2, dots, clean⟩

/-- The piece that a component is written as at the start of a path. -/
def start : Component → Octets
  | root => []
  | c => c.octets

/-- Nothing but the root is written as an empty piece. -/
theorem start_ne_nil (first : c.isFirst = true) (other : c ≠ .root) : c.start ≠ [] := by
  cases c with
  | root => contradiction
  | current => decide
  | parent => decide
  | name octets => exact (isName_iff.1 first).1

/-- No component is written with a separator in its piece. -/
theorem slash_not_mem_start (first : c.isFirst = true) : slash ∉ c.start := by
  cases c with
  | root => exact List.not_mem_nil
  | current => decide
  | parent => decide
  | name octets => exact (isName_iff.1 first).2.2.2

/-- What stands inside a path is not written as a silent piece. -/
theorem isSilent_octets (inner : c.isInner = true) : isSilent c.octets = false := by
  refine Bool.eq_false_iff.2 fun silent => ?_
  rw [← ofPiece?_eq_none_iff, ofPiece?_octets inner] at silent
  cases silent

end Component

/-- Whether a list of components can be that of a path: the root and `.` stand nowhere but at its
start, and every name is one. -/
def IsSpelling : List Component → Prop
  | [] => True
  | first :: rest => first.isFirst = true ∧ ∀ c ∈ rest, c.isInner = true

/-- Components that can stand inside a path can be those of one. -/
theorem isSpelling_of_isInner {all : List Component} (inner : ∀ c ∈ all, c.isInner = true) :
    IsSpelling all := by
  cases all with
  | nil => trivial
  | cons c rest =>
    exact ⟨Component.isFirst_of_isInner (inner c List.mem_cons_self),
      fun d among => inner d (List.mem_cons_of_mem _ among)⟩

variable {path : Path}

/-- No piece of a path holds a separator. -/
theorem slash_not_mem_of_mem_pieces {piece : Octets} (among : piece ∈ path.pieces) :
    slash ∉ piece :=
  Text.not_mem_of_mem_splitOn among

/-- What pieces without separators stand for can stand inside a path. -/
theorem isInner_of_mem_filterMap {pieces : List Octets} {c : Component}
    (clean : ∀ piece ∈ pieces, slash ∉ piece) (among : c ∈ pieces.filterMap Component.ofPiece?) :
    c.isInner = true := by
  obtain ⟨piece, inside, found⟩ := List.mem_filterMap.1 among
  exact Component.isInner_of_ofPiece? found (clean piece inside)

/-- A path has at least one piece, and its components are read off the pieces. -/
theorem exists_pieces (path : Path) : ∃ first rest, path.pieces = first :: rest ∧
    path.components = (leading first rest).toList ++ rest.filterMap Component.ofPiece? ∧
    ∀ piece ∈ first :: rest, slash ∉ piece := by
  cases cut : path.pieces with
  | nil => exact absurd cut (List.splitOn_ne_nil _ _)
  | cons first rest =>
    refine ⟨first, rest, rfl, ?_, fun piece among => slash_not_mem_of_mem_pieces (cut ▸ among)⟩
    unfold components
    rw [cut]

/-- The components of a path are a list of components of a path. -/
theorem isSpelling_components (path : Path) : IsSpelling path.components := by
  obtain ⟨first, rest, -, listed, clean⟩ := path.exists_pieces
  have inner : ∀ c ∈ rest.filterMap Component.ofPiece?, c.isInner = true := fun c =>
    isInner_of_mem_filterMap fun piece among => clean piece (List.mem_cons_of_mem _ among)
  rw [listed]
  -- The first piece gives a component of its own unless it is a lone empty one.
  cases led : leading first rest with
  | none =>
    exact isSpelling_of_isInner inner
  | some c =>
    refine ⟨?_, inner⟩
    unfold leading at led
    split at led
    · split at led <;> cases led
      rfl
    · split at led
      · cases led
        rfl
      · exact Component.isFirst_of_isInner
          (Component.isInner_of_ofPiece? led (clean first List.mem_cons_self))

/-- Names below the root are the components of a path. -/
theorem isSpelling_root_names {names : List Octets} (proper : ∀ name ∈ names, isName name = true) :
    IsSpelling (.root :: names.map .name) := by
  refine ⟨rfl, fun c among => ?_⟩
  obtain ⟨name, inside, rfl⟩ := List.mem_map.1 among
  exact proper name inside

/-- Components inside a path are read back from the pieces that spell them. -/
theorem filterMap_map_octets {all : List Component} (inner : ∀ c ∈ all, c.isInner = true) :
    (all.map Component.octets).filterMap Component.ofPiece? = all := by
  induction all with
  | nil => rfl
  | cons c rest ih =>
    rw [List.map_cons, List.filterMap_cons,
      Component.ofPiece?_octets (inner c List.mem_cons_self)]
    simp only [ih fun d among => inner d (List.mem_cons_of_mem _ among)]

/-- No component inside a path is written with a separator. -/
theorem slash_not_mem_of_mem_map_octets {all : List Component}
    (inner : ∀ c ∈ all, c.isInner = true) : ∀ piece ∈ all.map Component.octets, slash ∉ piece := by
  intro piece among
  obtain ⟨c, inside, rfl⟩ := List.mem_map.1 among
  have first := Component.isFirst_of_isInner (inner c inside)
  refine Component.slash_not_mem_octets first fun root => ?_
  rw [root] at inside
  cases inner _ inside

/-- The components of the path that pieces spell. -/
theorem components_intercalate {first : Octets} {rest : List Octets}
    (clean : ∀ piece ∈ first :: rest, slash ∉ piece) :
    (Path.ofOctets ([slash].intercalate (first :: rest))).components =
      (leading first rest).toList ++ rest.filterMap Component.ofPiece? := by
  unfold components pieces
  rw [List.splitOn_intercalate slash clean (List.cons_ne_nil _ _)]

/-! ## Spelling components by pieces -/

/-- The component of a first piece that is not alone. -/
def opening (first : Octets) : Option Component :=
  if first = [] then some .root
  else if first = [dot] then some .current
  else Component.ofPiece? first

/-- An empty piece that is not alone is the root. -/
theorem leading_eq_opening {first : Octets} {rest : List Octets}
    (fuller : first = [] → rest ≠ []) : leading first rest = opening first := by
  unfold leading opening
  split
  · rename_i empty
    rw [if_neg (fuller empty)]
  · rfl

/-- A component is read back from the piece it is written as at the start. -/
theorem opening_start {c : Component} (first : c.isFirst = true) : opening c.start = some c := by
  cases c with
  | root => rfl
  | current => rfl
  | parent => rfl
  | name octets =>
    obtain ⟨empty, dot, -⟩ := isName_iff.1 first
    have inner : (Component.name octets).isInner = true := first
    exact (if_neg empty).trans ((if_neg dot).trans (Component.ofPiece?_octets inner))

/-- The components of the path that pieces spell, where an empty piece alone is the root. -/
theorem components_ofPieces {first : Octets} {rest : List Octets}
    (clean : ∀ piece ∈ first :: rest, slash ∉ piece) :
    (ofPieces first rest).components =
      (opening first).toList ++ rest.filterMap Component.ofPiece? := by
  unfold ofPieces
  split
  · rename_i bare
    obtain ⟨rfl, rfl⟩ := bare
    decide
  · rename_i fuller
    rw [components_intercalate clean, leading_eq_opening fun empty alone => fuller ⟨empty, alone⟩]

/-- Components are spelled by the pieces they are written as. -/
theorem ofComponents_cons {c : Component} (first : c.isFirst = true) (rest : List Component) :
    ofComponents (c :: rest) = ofPieces c.start (rest.map Component.octets) := by
  by_cases absolute : c = .root
  · subst absolute
    cases rest <;> rfl
  · rw [ofPieces, if_neg fun bare => Component.start_ne_nil first absolute bare.1]
    cases c <;> first | contradiction | rfl

/-- A list of components of a path is that of the path it spells. -/
theorem components_ofComponents {all : List Component} (spelling : IsSpelling all) :
    (ofComponents all).components = all := by
  cases all with
  | nil => decide
  | cons c rest =>
    obtain ⟨first, inner⟩ := spelling
    have clean : ∀ piece ∈ c.start :: rest.map Component.octets, slash ∉ piece :=
      List.forall_mem_cons.2
        ⟨Component.slash_not_mem_start first, slash_not_mem_of_mem_map_octets inner⟩
    rw [ofComponents_cons first, components_ofPieces clean, opening_start first,
      filterMap_map_octets inner]
    rfl

/-- A piece is pushed behind the others. -/
theorem push_ofPieces {first piece : Octets} {rest : List Octets}
    (filled : ∀ other ∈ rest, other ≠ []) (clean : ∀ other ∈ first :: rest, slash ∉ other)
    (relative : piece.head? ≠ some slash) :
    (ofPieces first rest).push piece = ofPieces first (rest ++ [piece]) := by
  unfold push
  rw [if_neg relative]
  by_cases bare : first = [] ∧ rest = []
  · obtain ⟨rfl, rfl⟩ := bare
    simp [ofPieces]
  · -- The last piece has octets, so that a separator is put in between.
    obtain ⟨before, last, split, told⟩ : ∃ before last, first :: rest = before ++ [last] ∧
        last ≠ [] := by
      cases rest using List.reverseRecOn with
      | nil => exact ⟨[], first, rfl, fun empty => bare ⟨empty, rfl⟩⟩
      | append_singleton more last => exact ⟨first :: more, last, rfl, filled last (by simp)⟩
    obtain ⟨long, unended⟩ := Text.intercalate_unended before told (clean last (by simp [split]))
    have spelled : ofPieces first rest = ⟨[slash].intercalate (before ++ [last])⟩ := by
      rw [ofPieces, if_neg bare, split]
    have longer : ofPieces first (rest ++ [piece]) =
        ⟨[slash].intercalate (before ++ [last] ++ [piece])⟩ := by
      rw [ofPieces, if_neg (by simp), ← List.cons_append, split]
    rw [spelled, longer, if_neg (not_or.2 ⟨long, unended⟩)]
    exact congrArg _ (Text.intercalate_append_singleton (by simp) piece).symm

/-- A component inside a path is pushed behind the others. -/
theorem push_ofComponents {all : List Component} {c : Component} (spelling : IsSpelling all)
    (inner : c.isInner = true) : (ofComponents all).push c.octets = ofComponents (all ++ [c]) := by
  have first := Component.isFirst_of_isInner inner
  have root := Component.ne_root inner
  have relative : c.octets.head? ≠ some slash := fun head =>
    Component.slash_not_mem_octets first root (List.mem_of_mem_head? (Option.mem_def.2 head))
  cases all with
  | nil =>
    have spelled : ofComponents [c] = ⟨c.octets⟩ := by
      cases c <;> first | contradiction | simp [ofComponents]
    rw [List.nil_append, spelled, push, if_neg relative, if_pos (.inl rfl)]
    simp [ofComponents]
  | cons d rest =>
    obtain ⟨leads, within⟩ := spelling
    have filled : ∀ piece ∈ rest.map Component.octets, piece ≠ [] := by
      intro piece among
      obtain ⟨e, inside, rfl⟩ := List.mem_map.1 among
      intro empty
      simpa [empty, isSilent] using Component.isSilent_octets (within e inside)
    rw [List.cons_append, ofComponents_cons leads, ofComponents_cons leads, List.map_append,
      List.map_singleton]
    exact push_ofPieces filled (List.forall_mem_cons.2
      ⟨Component.slash_not_mem_start leads, slash_not_mem_of_mem_map_octets within⟩) relative

/-- The parent of a path is spelled by its pieces but the last, if none of them is silent. -/
theorem parent_ofPieces {first last : Octets} {rest : List Octets}
    (loud : ∀ piece ∈ rest ++ [last], isSilent piece = false)
    (clean : ∀ piece ∈ first :: (rest ++ [last]), slash ∉ piece) :
    (ofPieces first (rest ++ [last])).parent = some (ofPieces first rest) := by
  have cut : (ofPieces first (rest ++ [last])).pieces = first :: (rest ++ [last]) := by
    rw [ofPieces, if_neg (by simp), pieces,
      List.splitOn_intercalate slash clean (List.cons_ne_nil _ _)]
  have kept : rest.reverse.dropWhile isSilent = rest.reverse := by
    cases back : rest.reverse with
    | nil => rfl
    | cons piece more =>
      have among : piece ∈ rest := List.mem_reverse.1 (back ▸ List.mem_cons_self)
      exact List.dropWhile_cons_of_neg (by simp [loud piece (List.mem_append_left _ among)])
  have ends : (rest ++ [last]).reverse.dropWhile isSilent = last :: rest.reverse := by
    rw [List.reverse_append, List.reverse_singleton, List.singleton_append]
    exact List.dropWhile_cons_of_neg (by simp [loud last])
  simp only [parent, cut, ends, kept, List.reverse_reverse]

/-- The parent of a path that components spell is spelled by those before the last. -/
theorem parent_ofComponents {above : List Component} {last : Component}
    (spelling : IsSpelling (above ++ [last])) (inner : last.isInner = true) :
    (ofComponents (above ++ [last])).parent = some (ofComponents above) := by
  cases above with
  | nil =>
    have first := Component.isFirst_of_isInner inner
    have root := Component.ne_root inner
    have cut : (ofComponents [last]).pieces = [last.start] := by
      rw [ofComponents_cons first, ofPieces,
        if_neg fun bare => Component.start_ne_nil first root bare.1, pieces,
        List.map_nil, List.intercalate_singleton,
        List.splitOn_eq_singleton (Component.slash_not_mem_start first)]
    rw [List.nil_append, parent, cut]
    exact if_neg (Component.start_ne_nil first root)
  | cons c rest =>
    obtain ⟨leads, within⟩ := spelling
    have loud : ∀ piece ∈ (rest ++ [last]).map Component.octets, isSilent piece = false := by
      intro piece among
      obtain ⟨d, inside, rfl⟩ := List.mem_map.1 among
      exact Component.isSilent_octets (within d inside)
    have clean : ∀ piece ∈ c.start :: (rest ++ [last]).map Component.octets, slash ∉ piece :=
      List.forall_mem_cons.2
        ⟨Component.slash_not_mem_start leads, slash_not_mem_of_mem_map_octets within⟩
    rw [List.map_append, List.map_singleton] at loud clean
    rw [List.cons_append, ofComponents_cons leads, ofComponents_cons leads, List.map_append,
      List.map_singleton]
    exact parent_ofPieces loud clean

/-! ## The parent of a path -/

/-- Silent pieces stand for nothing. -/
theorem filterMap_of_silent {pieces : List Octets} (silent : ∀ p ∈ pieces, isSilent p = true) :
    pieces.filterMap Component.ofPiece? = [] :=
  List.filterMap_eq_nil_iff.2 fun piece among =>
    Component.ofPiece?_eq_none_iff.2 (silent piece among)

/-- Silent pieces at the end of a list, which is given from its end, add nothing. -/
theorem filterMap_reverse_dropWhile (pieces : List Octets) :
    (pieces.dropWhile isSilent).reverse.filterMap Component.ofPiece? =
      pieces.reverse.filterMap Component.ofPiece? := by
  have silent : (pieces.takeWhile isSilent).reverse.filterMap Component.ofPiece? = [] :=
    filterMap_of_silent fun piece among =>
      List.all_eq_true.1 List.all_takeWhile piece (List.mem_reverse.1 among)
  conv_rhs => rw [← List.takeWhile_append_dropWhile (p := isSilent) (l := pieces)]
  rw [List.reverse_append, List.filterMap_append, silent, List.append_nil]

/-- A path has a parent unless it has no component but the root, and the parent has its components
without the last. -/
theorem components_parent (path : Path) :
    (path.parent = none ∧ (path.components = [] ∨ path.components = [.root])) ∨
      ∃ directory last, path.parent = some directory ∧
        path.components = directory.components ++ [last] ∧ last ≠ .root := by
  obtain ⟨first, rest, cut, components, clean⟩ := path.exists_pieces
  have listed : rest.filterMap Component.ofPiece? =
      (rest.reverse.dropWhile isSilent).reverse.filterMap Component.ofPiece? := by
    rw [filterMap_reverse_dropWhile, List.reverse_reverse]
  unfold parent
  rw [components, cut]
  simp only
  cases loud : rest.reverse.dropWhile isSilent with
  | nil =>
    -- Nothing but the first piece counts.
    rw [listed, loud, List.reverse_nil, List.filterMap_nil, List.append_nil]
    by_cases empty : first = []
    · left
      unfold leading
      rw [if_pos empty, if_pos empty]
      refine ⟨rfl, ?_⟩
      split
      · exact .inl rfl
      · exact .inr rfl
    · right
      obtain ⟨c, led, inner⟩ : ∃ c, leading first rest = some c ∧ c ≠ .root := by
        unfold leading
        rw [if_neg empty]
        split
        · exact ⟨_, rfl, nofun⟩
        · rename_i dot
          cases found : Component.ofPiece? first with
          | none =>
            rw [Component.ofPiece?_eq_none_iff] at found
            simp [isSilent, empty, dot] at found
          | some c =>
            refine ⟨c, rfl, ?_⟩
            rintro rfl
            cases Component.isInner_of_ofPiece? found (clean first List.mem_cons_self)
      refine ⟨⟨""⟩, c, if_neg empty, ?_, inner⟩
      rw [led]
      rfl
  | cons x before =>
    right
    have among : ∀ piece ∈ x :: before, piece ∈ rest := fun piece inside =>
      List.mem_reverse.1 ((List.dropWhile_sublist isSilent).subset (loud ▸ inside))
    have speaks : isSilent x ≠ true := by
      have head := List.head?_dropWhile_not isSilent rest.reverse
      simpa [loud] using head
    obtain ⟨c, found⟩ : ∃ c, Component.ofPiece? x = some c :=
      Option.ne_none_iff_exists'.1 (mt Component.ofPiece?_eq_none_iff.1 speaks)
    have led : leading first rest = opening first :=
      leading_eq_opening fun _ => List.ne_nil_of_mem (among x List.mem_cons_self)
    refine ⟨_, c, rfl, ?_, ?_⟩
    · rw [components_ofPieces, filterMap_reverse_dropWhile, led, listed, loud, List.reverse_cons,
        List.filterMap_append, List.append_assoc]
      · simp [found]
      · refine List.forall_mem_cons.2 ⟨clean first List.mem_cons_self, fun piece inside => ?_⟩
        refine clean piece (List.mem_cons_of_mem _ (among piece (List.mem_cons_of_mem _ ?_)))
        exact (List.dropWhile_sublist isSilent).subset (List.mem_reverse.1 inside)
    · rintro rfl
      have xClean := clean x (List.mem_cons_of_mem _ (among x List.mem_cons_self))
      cases Component.isInner_of_ofPiece? found xClean

/-- The parent of a path has its components without the last, which is not the root. -/
theorem components_of_parent {directory : Path} (h : path.parent = some directory) :
    ∃ last, path.components = directory.components ++ [last] ∧ last ≠ .root := by
  rcases components_parent path with ⟨none, -⟩ | ⟨other, last, some, split, inner⟩
  · cases none.symm.trans h
  · cases some.symm.trans h
    exact ⟨last, split, inner⟩

/-- A path whose last component is not the root has a parent, with the components before. -/
theorem parent_of_components {above : List Component} {last : Component}
    (h : path.components = above ++ [last]) (inner : last ≠ .root) :
    ∃ directory, path.parent = some directory ∧ directory.components = above := by
  rcases path.components_parent with ⟨-, bare⟩ | ⟨directory, other, up, split, -⟩
  · exfalso
    rw [h] at bare
    rcases bare with empty | alone
    · simp at empty
    · rw [← List.nil_append [Component.root]] at alone
      exact inner (List.singleton_inj.1 (List.append_inj' alone rfl).2)
  · exact ⟨directory, up, (List.append_inj' (split.symm.trans h) rfl).1⟩

/-- An ancestor of a path has its components but that many at the end, none of which is the
root. -/
theorem components_ancestor {steps : Nat} {above : Path} (h : path.ancestor steps = some above) :
    ∃ below, path.components = above.components ++ below ∧ below.length = steps ∧
      .root ∉ below := by
  induction steps generalizing path with
  | zero =>
    cases h
    exact ⟨[], by simp⟩
  | succ steps ih =>
    obtain ⟨directory, up, rest⟩ := Option.bind_eq_some_iff.1 h
    obtain ⟨last, split, inner⟩ := components_of_parent up
    obtain ⟨below, parted, length, rootless⟩ := ih rest
    refine ⟨below ++ [last], ?_, by simp [length], ?_⟩
    · rw [split, parted, List.append_assoc]
    · simp [rootless, inner.symm]

/-- A path has an ancestor with the components before some others, if none of those is the root. -/
theorem ancestor_of_components {above below : List Component}
    (h : path.components = above ++ below) (rootless : .root ∉ below) :
    ∃ ancestor, path.ancestor below.length = some ancestor ∧ ancestor.components = above := by
  induction below using List.reverseRecOn generalizing path with
  | nil => exact ⟨path, rfl, by rw [h, List.append_nil]⟩
  | append_singleton before last ih =>
    rw [List.mem_append, List.mem_singleton, not_or] at rootless
    obtain ⟨directory, up, split⟩ :=
      parent_of_components ((List.append_assoc _ _ _).symm ▸ h) (Ne.symm rootless.2)
    obtain ⟨ancestor, found, same⟩ := ih split rootless.1
    refine ⟨ancestor, ?_, same⟩
    rw [List.length_append, List.length_singleton, Path.ancestor, up, Option.bind_some, found]

/-- A path and the one above it start at the root together. -/
theorem isAbsolute_of_components_append {above : Path} {below : List Component}
    (h : path.components = above.components ++ below) (rootless : .root ∉ below) :
    above.isAbsolute = path.isAbsolute := by
  unfold isAbsolute
  rw [h]
  cases above.components with
  | nil =>
    cases below with
    | nil => rfl
    | cons c more =>
      have inner : c ≠ .root := fun same => rootless (same ▸ List.mem_cons_self)
      simp [inner]
  | cons c more => rfl

/-! ## Pushing names -/

/-- Names can be the components of a path. -/
theorem isSpelling_names {names : List Octets} (proper : ∀ name ∈ names, isName name = true) :
    IsSpelling (names.map .name) :=
  isSpelling_of_isInner fun c among => by
    obtain ⟨name, inside, rfl⟩ := List.mem_map.1 among
    exact proper name inside

/-- Names pushed one after the other are spelled as components. -/
theorem ofNames_eq {names : List Octets} (proper : ∀ name ∈ names, isName name = true) :
    ofNames names = ofComponents (names.map .name) := by
  unfold ofNames
  induction names using List.reverseRecOn with
  | nil => decide
  | append_singleton before last ih =>
    have earlier : ∀ name ∈ before, isName name = true := fun name among =>
      proper name (List.mem_append_left _ among)
    have inner : (Component.name last).isInner = true := proper last (by simp)
    rw [List.foldl_append, List.foldl_cons, List.foldl_nil, ih earlier, List.map_append]
    exact push_ofComponents (isSpelling_names earlier) inner

/-- The components of pushed names are the names. -/
theorem components_ofNames {names : List Octets} (proper : ∀ name ∈ names, isName name = true) :
    (ofNames names).components = names.map .name := by
  rw [ofNames_eq proper, components_ofComponents (isSpelling_names proper)]

end Path

end DiagnosticServer
