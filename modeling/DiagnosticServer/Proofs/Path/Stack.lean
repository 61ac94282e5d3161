import DiagnosticServer.Path.Normal
import DiagnosticServer.Proofs.Path.Components

/-!
# The stack of a normal form

Normalising reads the components of a path onto a stack. No component unsettles a stack that holds
names on top of the root, or names on top of any number of `..` (`IsSettled.settle`), so every path
leaves such a stack (`isSettled_components`) and its normal form has the components of that stack
from the bottom to the top (`components_normalize`). Read again, they build the same stack
(`IsSettled.foldl_settle_reverse`): the normal form is its own normal form (`normalize_normalize`).
-/

namespace DiagnosticServer.Path

variable {path : Path} {stack all : List Component} {c : Component} {absolute : Bool}

/-! ## Components of absolute and relative paths -/

/-- The components of an absolute path are the root and what can stand inside a path. -/
theorem exists_components_of_isAbsolute (absolute : path.isAbsolute = true) :
    ∃ rest, path.components = .root :: rest ∧ ∀ c ∈ rest, c.isInner = true := by
  have spelling := path.isSpelling_components
  unfold isAbsolute at absolute
  cases listed : path.components with
  | nil => simp [listed] at absolute
  | cons first rest =>
    rw [listed] at absolute spelling
    obtain rfl : first = .root := by simpa using absolute
    exact ⟨rest, rfl, spelling.2⟩

/-- The components of a relative path are `.` and what can stand inside a path. -/
theorem isInner_of_mem_components (relative : path.isAbsolute = false) :
    ∀ c ∈ path.components, c = .current ∨ c.isInner = true := by
  have spelling := path.isSpelling_components
  unfold isAbsolute at relative
  cases listed : path.components with
  | nil => exact List.forall_mem_nil _
  | cons first rest =>
    rw [listed] at relative spelling
    refine List.forall_mem_cons.2 ⟨?_, fun c among => .inr (spelling.2 c among)⟩
    cases first with
    | root => simp at relative
    | current => exact .inl rfl
    | parent => exact .inr rfl
    | name octets => exact .inr spelling.1

/-! ## Settled stacks -/

/-- Whether a stack holds names on top of the root, which makes it absolute, or names on top of any
number of `..`. -/
inductive IsSettled : Bool → List Component → Prop
  /-- Names on top of the root. -/
  | absolute (names : List Octets) (proper : ∀ name ∈ names, isName name = true) :
    IsSettled true (names.map .name ++ [.root])
  /-- Names on top of any number of `..`. -/
  | relative (names : List Octets) (ups : Nat) (proper : ∀ name ∈ names, isName name = true) :
    IsSettled false (names.map .name ++ List.replicate ups .parent)

/-- On a stack of `..` another one stays. -/
theorem settle_parents (ups : Nat) :
    settle (List.replicate ups .parent) .parent = List.replicate (ups + 1) .parent := by
  cases ups <;> rfl

/-- No component behind the start of a path unsettles a stack. -/
theorem IsSettled.settle (settled : IsSettled absolute stack)
    (fits : c = .current ∨ c.isInner = true) : IsSettled absolute (settle stack c) := by
  cases c with
  | root => exact absurd (fits.resolve_left nofun) nofun
  | current => exact settled
  | name octets =>
    have inner : isName octets = true := fits.resolve_left nofun
    cases settled with
    | absolute names proper =>
      exact .absolute (octets :: names) (List.forall_mem_cons.2 ⟨inner, proper⟩)
    | relative names ups proper =>
      exact .relative (octets :: names) ups (List.forall_mem_cons.2 ⟨inner, proper⟩)
  | parent =>
    cases settled with
    | absolute names proper =>
      cases names with
      | nil => exact .absolute [] proper
      | cons name rest => exact .absolute rest (List.forall_mem_cons.1 proper).2
    | relative names ups proper =>
      cases names with
      | nil => exact settle_parents ups ▸ .relative [] (ups + 1) proper
      | cons name rest => exact .relative rest ups (List.forall_mem_cons.1 proper).2

/-- Several components do not unsettle a stack. -/
theorem IsSettled.foldl_settle (settled : IsSettled absolute stack)
    (fits : ∀ c ∈ all, c = .current ∨ c.isInner = true) :
    IsSettled absolute (all.foldl Path.settle stack) := by
  induction all generalizing stack with
  | nil => exact settled
  | cons c rest ih =>
    exact ih (settled.settle (fits c List.mem_cons_self))
      fun d among => fits d (List.mem_cons_of_mem _ among)

/-- Every path leaves a settled stack, which is absolute if the path is. -/
theorem isSettled_components (path : Path) :
    IsSettled path.isAbsolute (path.components.foldl settle []) := by
  cases absolute : path.isAbsolute with
  | true =>
    obtain ⟨rest, listed, inner⟩ := exists_components_of_isAbsolute absolute
    rw [listed]
    exact (IsSettled.absolute [] nofun).foldl_settle fun c among => .inr (inner c among)
  | false =>
    exact (IsSettled.relative [] 0 nofun).foldl_settle (isInner_of_mem_components absolute)

namespace IsSettled

/-- A settled stack is from the bottom to the top a list of components of a path. -/
theorem isSpelling (settled : IsSettled absolute stack) : IsSpelling stack.reverse := by
  cases settled with
  | absolute names proper =>
    rw [List.reverse_append, ← List.map_reverse]
    exact isSpelling_root_names fun name among => proper name (List.mem_reverse.1 among)
  | relative names ups proper =>
    refine isSpelling_of_isInner fun c among => ?_
    rcases List.mem_append.1 (List.mem_reverse.1 among) with named | up
    · obtain ⟨name, inside, rfl⟩ := List.mem_map.1 named
      exact proper name inside
    · rw [List.eq_of_mem_replicate up]
      rfl

/-- From the bottom to the top an absolute stack is the root and names. -/
theorem exists_names (settled : IsSettled true stack) :
    ∃ names : List Octets, stack.reverse = .root :: names.map .name := by
  cases settled with
  | absolute names proper =>
    exact ⟨names.reverse, by rw [List.reverse_append, ← List.map_reverse]; rfl⟩

/-- From the bottom to the top a relative stack is any number of `..` and names. -/
theorem exists_ups_names (settled : IsSettled false stack) : ∃ ups, ∃ names : List Octets,
    stack.reverse = List.replicate ups .parent ++ names.map .name := by
  cases settled with
  | relative names ups proper =>
    exact ⟨ups, names.reverse, by
      rw [List.reverse_append, ← List.map_reverse, List.reverse_replicate]⟩

/-- A settled stack has the root at its bottom if and only if it is absolute. -/
theorem head?_reverse (settled : IsSettled absolute stack) :
    (stack.reverse.head? == some .root) = absolute := by
  cases settled with
  | absolute names proper => simp
  | relative names ups proper =>
    refine Bool.eq_false_iff.2 fun head => ?_
    have among := List.mem_of_mem_head? (Option.mem_def.2 (eq_of_beq head))
    simp at among

end IsSettled

/-- Names are put on a stack one on top of the other. -/
theorem foldl_settle_names (stack : List Component) (names : List Octets) :
    (names.map .name).foldl settle stack = names.reverse.map .name ++ stack := by
  induction names generalizing stack with
  | nil => rfl
  | cons name rest ih =>
    rw [List.map_cons, List.foldl_cons, ih]
    simp [settle]

/-- Any number of `..` at the start of a path stay. -/
theorem foldl_settle_parents (ups : Nat) :
    (List.replicate ups .parent).foldl settle [] = List.replicate ups .parent := by
  induction ups with
  | zero => rfl
  | succ ups ih =>
    rw [List.replicate_succ', List.foldl_append, ih]
    exact (settle_parents ups).trans List.replicate_succ'

/-- A settled stack is built again from its components. -/
theorem IsSettled.foldl_settle_reverse (settled : IsSettled absolute stack) :
    stack.reverse.foldl Path.settle [] = stack := by
  cases settled with
  | absolute names proper =>
    rw [List.reverse_append, ← List.map_reverse, List.foldl_append, foldl_settle_names,
      List.reverse_reverse]
    rfl
  | relative names ups proper =>
    rw [List.reverse_append, ← List.map_reverse, List.reverse_replicate, List.foldl_append,
      foldl_settle_parents, foldl_settle_names, List.reverse_reverse]

/-! ## The normal form -/

/-- The normal form of a path has the components that the path leaves on the stack. -/
theorem components_normalize (path : Path) :
    path.normalize.components = (path.components.foldl settle []).reverse :=
  components_ofComponents (isSettled_components path).isSpelling

/-- A path and its normal form start at the root together. -/
theorem isAbsolute_normalize (path : Path) : path.normalize.isAbsolute = path.isAbsolute := by
  rw [isAbsolute, components_normalize, (isSettled_components path).head?_reverse]

/-- A path and its normal form leave the same stack. -/
theorem foldl_settle_components_normalize (path : Path) :
    path.normalize.components.foldl settle [] = path.components.foldl settle [] := by
  rw [components_normalize, (isSettled_components path).foldl_settle_reverse]

/-- The normal form of a path is its own normal form. -/
theorem normalize_normalize (path : Path) : path.normalize.normalize = path.normalize := by
  rw [normalize, foldl_settle_components_normalize, ← normalize]

end DiagnosticServer.Path
