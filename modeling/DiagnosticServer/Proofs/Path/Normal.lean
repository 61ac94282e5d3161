import DiagnosticServer.FileSystem.Resolve
import DiagnosticServer.Proofs.Path.Stack

/-!
# Normal forms and locations

The normal form of an absolute path is the path of a location: the one that is reached by following
the components as if there were no links (`normalize_of_isAbsolute`). A location is read back from
its path (`pathOf_injective`), and its path is its own normal form (`normalize_pathOf`).
-/

namespace DiagnosticServer

open FileSystem

namespace Path

variable {path : Path} {location : Location}

/-- A path is absolute exactly if it is written with a separator at its start. -/
theorem isAbsolute_iff : path.isAbsolute = true ↔ path.octets.head? = some slash := by
  obtain ⟨first, rest, cut, listed, clean⟩ := path.exists_pieces
  have spelled : path.octets = [slash].intercalate (first :: rest) := by
    rw [← cut, pieces, List.intercalate_splitOn]
  have inner : ∀ c ∈ rest.filterMap Component.ofPiece?, c ≠ .root := by
    rintro c among rfl
    cases isInner_of_mem_filterMap (fun p later => clean p (List.mem_cons_of_mem _ later)) among
  unfold isAbsolute
  rw [spelled, listed, beq_iff_eq]
  cases first with
  | nil =>
    cases rest with
    | nil => simp [leading]
    | cons next more => simp [leading]
  | cons c tail =>
    have start : ([slash].intercalate ((c :: tail) :: rest)).head? = some c := by
      rw [List.intercalate_cons_cons_left, List.head?_cons]
    have other : c ≠ slash := fun same => clean _ List.mem_cons_self (same ▸ List.mem_cons_self)
    rw [start]
    -- A first piece with octets does not give the root, and no later piece does.
    refine ⟨fun h => ?_, fun h => absurd (Option.some.inj h) other⟩
    have among : .root ∈ (leading (c :: tail) rest).toList ++ rest.filterMap Component.ofPiece? :=
      List.mem_of_mem_head? (Option.mem_def.2 h)
    rcases List.mem_append.1 among with led | later
    · rw [Option.mem_toList, leading, if_neg (List.cons_ne_nil _ _)] at led
      split at led
      · cases led
      · cases Component.isInner_of_ofPiece? led (clean _ List.mem_cons_self)
    · exact absurd rfl (inner _ later)

/-! ## Paths of locations -/

/-- The components of the path of a location. -/
theorem components_pathOf (names : ∀ name ∈ location, isName name = true) :
    (pathOf location).components = .root :: location.reverse.map .name :=
  components_ofComponents (isSpelling_root_names fun name among =>
    names name (List.mem_reverse.1 among))

/-- The path of a location is absolute. -/
theorem isAbsolute_pathOf (names : ∀ name ∈ location, isName name = true) :
    (pathOf location).isAbsolute = true := by
  rw [isAbsolute, components_pathOf names]
  rfl

/-- A location is read back from its path. -/
theorem pathOf_injective {other : Location} (names : ∀ name ∈ location, isName name = true)
    (others : ∀ name ∈ other, isName name = true) (same : pathOf location = pathOf other) :
    location = other := by
  have listed :
      Component.root :: location.reverse.map .name = .root :: other.reverse.map .name := by
    rw [← components_pathOf names, ← components_pathOf others, same]
  have alike := List.map_injective_iff.2 (fun _ _ h => Component.name.inj h)
    (List.cons.inj listed).2
  exact List.reverse_injective alike

/-! ## Climbing -/

/-- Where a component leads from a location if there are no links. -/
def climb (here : Location) : Component → Location
  | .name octets => octets :: here
  | .parent => here.tail
  | _ => here

/-- Climbing over what can stand inside a path keeps to names. -/
theorem isName_of_mem_climb {here : Location} {c : Component} (inner : c.isInner = true)
    (names : ∀ name ∈ here, isName name = true) : ∀ name ∈ climb here c, isName name = true := by
  cases c with
  | root => cases inner
  | current => cases inner
  | parent => exact fun name among => names name (List.mem_of_mem_tail among)
  | name octets => exact List.forall_mem_cons.2 ⟨inner, names⟩

/-- Climbing over several components keeps to names. -/
theorem isName_of_mem_foldl_climb {here : Location} {all : List Component}
    (inner : ∀ c ∈ all, c.isInner = true) (names : ∀ name ∈ here, isName name = true) :
    ∀ name ∈ all.foldl climb here, isName name = true := by
  induction all generalizing here with
  | nil => exact names
  | cons c rest ih =>
    exact ih (fun d among => inner d (List.mem_cons_of_mem _ among))
      (isName_of_mem_climb (inner c List.mem_cons_self) names)

/-- Names are climbed one below the other. -/
theorem foldl_climb_names (here : Location) (names : List Octets) :
    (names.map .name).foldl climb here = names.reverse ++ here := by
  induction names generalizing here with
  | nil => rfl
  | cons name rest ih =>
    rw [List.map_cons, List.foldl_cons, ih]
    simp [climb]

/-- The stack of components that stands for a location. -/
def stackOf (here : Location) : List Component := here.map .name ++ [.root]

/-- On the stack of a location a component does what climbing does. -/
theorem settle_stackOf {here : Location} {c : Component} (inner : c.isInner = true) :
    settle (stackOf here) c = stackOf (climb here c) := by
  cases c with
  | root => cases inner
  | current => cases inner
  | parent =>
    cases here with
    | nil => rfl
    | cons name rest => rfl
  | name octets => rfl

/-- On the stack of a location several components do what climbing does. -/
theorem foldl_settle_stackOf {here : Location} {all : List Component}
    (inner : ∀ c ∈ all, c.isInner = true) :
    all.foldl settle (stackOf here) = stackOf (all.foldl climb here) := by
  induction all generalizing here with
  | nil => rfl
  | cons c rest ih =>
    rw [List.foldl_cons, List.foldl_cons, settle_stackOf (inner c List.mem_cons_self)]
    exact ih fun d among => inner d (List.mem_cons_of_mem _ among)

/-- The path of a location is the one that its stack spells. -/
theorem ofComponents_reverse_stackOf (here : Location) :
    ofComponents (stackOf here).reverse = pathOf here := by
  simp [stackOf, pathOf]

/-- The normal form of an absolute path is the path of the location that its components climb
to. -/
theorem normalize_of_isAbsolute (absolute : path.isAbsolute = true) :
    path.normalize = pathOf (path.components.foldl climb []) ∧
      ∀ name ∈ path.components.foldl climb [], isName name = true := by
  obtain ⟨rest, listed, inner⟩ := exists_components_of_isAbsolute absolute
  have climbed : path.components.foldl climb [] = rest.foldl climb [] := by rw [listed]; rfl
  rw [climbed]
  refine ⟨?_, isName_of_mem_foldl_climb inner nofun⟩
  calc path.normalize
      = ofComponents (rest.foldl settle (stackOf [])).reverse := by rw [normalize, listed]; rfl
    _ = pathOf (rest.foldl climb []) := by
        rw [foldl_settle_stackOf inner, ofComponents_reverse_stackOf]

/-- The path of a location is its own normal form. -/
theorem normalize_pathOf (names : ∀ name ∈ location, isName name = true) :
    (pathOf location).normalize = pathOf location := by
  have climbed : (pathOf location).components.foldl climb [] = location := by
    rw [components_pathOf names, List.foldl_cons]
    exact (foldl_climb_names [] location.reverse).trans (by simp)
  rw [(normalize_of_isAbsolute (isAbsolute_pathOf names)).1, climbed]

end Path

end DiagnosticServer
