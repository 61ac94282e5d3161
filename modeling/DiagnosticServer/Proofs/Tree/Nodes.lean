import Mathlib.Data.List.Basic
import DiagnosticServer.Tree.Search

/-!
# The nodes of a tree

What a tree is made of, said in three ways: which labels stand in it (`HasNode`), the list of its
subtrees, and its census, which lists the nodes in the order of the text, each with the nodes above
it. A tree whose every subtree tells truly whether it has an error is marked throughout. The
outermost faults are read off the census: the errors and missing nodes with no such node above
them.
-/

namespace DiagnosticServer.Tree

/-- A label stands at some node of a tree. -/
inductive HasNode : Tree → Label → Prop where
  /-- It stands at the top. -/
  | top (label : Label) (children : List Tree) : HasNode (node label children) label
  /-- It stands in one of the trees right below the top. -/
  | inner {label other : Label} {children : List Tree} {child : Tree} (among : child ∈ children)
      (inside : HasNode child other) : HasNode (node label children) other

/-- The top of a tree tells whether an error or missing node lies in it. -/
def IsMarked (tree : Tree) : Prop :=
  tree.label.hasError = true ↔
    ∃ label, tree.HasNode label ∧ (label.isError = true ∨ label.isMissing = true)

/-- No node of a tree is an error or missing. -/
def IsSound (tree : Tree) : Prop :=
  ∀ label, tree.HasNode label → label.isError = false ∧ label.isMissing = false

/-- The top of a sound tree tells of no error. -/
theorem IsMarked.hasError_eq_false {tree : Tree} (marked : tree.IsMarked) (sound : tree.IsSound) :
    tree.label.hasError = false := by
  refine Bool.eq_false_iff.2 fun told => ?_
  obtain ⟨label, inside, faulty⟩ := marked.1 told
  obtain ⟨noError, present⟩ := sound label inside
  simp [noError, present] at faulty

/-- What holds of a node when it holds of those right below it holds of every tree. -/
@[elab_as_elim]
theorem bottomUp {motive : Tree → Prop}
    (node : ∀ label children, (∀ child ∈ children, motive child) → motive (node label children)) :
    ∀ tree, motive tree
  | .node label children => node label children fun child _ => bottomUp node child

/-! ## Subtrees -/

mutual

/-- The trees that a tree is made of, itself first. -/
def subtrees : Tree → List Tree
  | node label children => node label children :: subtreesAmong children

/-- The trees that several trees are made of. -/
def subtreesAmong : List Tree → List Tree
  | [] => []
  | tree :: rest => subtrees tree ++ subtreesAmong rest

end

variable {tree : Tree} {label : Label} {children : List Tree}

/-- The subtrees of several trees are those of each. -/
theorem subtreesAmong_eq (trees : List Tree) : subtreesAmong trees = trees.flatMap subtrees := by
  induction trees with
  | nil => rfl
  | cons tree rest ih => rw [subtreesAmong, ih, List.flatMap_cons]

/-- A tree is a subtree of itself, and its others are those of its children. -/
theorem mem_subtrees_node {sub : Tree} : sub ∈ (node label children).subtrees ↔
    sub = node label children ∨ ∃ child ∈ children, sub ∈ child.subtrees := by
  rw [subtrees, List.mem_cons, subtreesAmong_eq, List.mem_flatMap]

/-- A tree is a subtree of itself. -/
theorem self_mem_subtrees (tree : Tree) : tree ∈ tree.subtrees := by
  obtain ⟨label, children⟩ := tree
  exact mem_subtrees_node.2 (.inl rfl)

/-- The labels in a tree are those at the tops of its subtrees. -/
theorem hasNode_iff : tree.HasNode label ↔ ∃ sub ∈ tree.subtrees, sub.label = label := by
  induction tree using bottomUp with
  | node top children ih =>
    constructor
    · intro inside
      cases inside with
      | top => exact ⟨_, self_mem_subtrees _, rfl⟩
      | inner among inside =>
        obtain ⟨sub, below, same⟩ := (ih _ among).1 inside
        exact ⟨sub, mem_subtrees_node.2 (.inr ⟨_, among, below⟩), same⟩
    · rintro ⟨sub, below, rfl⟩
      rcases mem_subtrees_node.1 below with rfl | ⟨child, among, deeper⟩
      · exact .top _ _
      · exact .inner among ((ih child among).2 ⟨sub, deeper, rfl⟩)

/-- Every subtree of a tree tells truly whether an error or missing node lies in it. -/
def IsMarkedThroughout (tree : Tree) : Prop := ∀ sub ∈ tree.subtrees, sub.IsMarked

/-- The top of a tree tells of an error exactly if that of a subtree is a fault. -/
theorem isMarked_iff : tree.IsMarked ↔
    tree.label.hasError = tree.subtrees.any fun sub => sub.label.isFault := by
  have told : (∃ label, tree.HasNode label ∧ (label.isError = true ∨ label.isMissing = true)) ↔
      (tree.subtrees.any fun sub => sub.label.isFault) = true := by
    rw [List.any_eq_true]
    constructor
    · rintro ⟨label, inside, faulty⟩
      obtain ⟨sub, below, rfl⟩ := hasNode_iff.1 inside
      exact ⟨sub, below, Bool.or_eq_true_iff.2 faulty.symm⟩
    · rintro ⟨sub, below, faulty⟩
      exact ⟨_, hasNode_iff.2 ⟨sub, below, rfl⟩, (Bool.or_eq_true_iff.1 faulty).symm⟩
  exact (iff_congr Iff.rfl told).trans Bool.eq_iff_iff.symm

instance (tree : Tree) : Decidable tree.IsMarked := decidable_of_iff _ isMarked_iff.symm

instance (tree : Tree) : Decidable tree.IsMarkedThroughout :=
  inferInstanceAs (Decidable (∀ sub ∈ tree.subtrees, sub.IsMarked))

/-- The children of a tree that is marked throughout are so too. -/
theorem IsMarkedThroughout.of_mem (marked : (node label children).IsMarkedThroughout) {child : Tree}
    (among : child ∈ children) : child.IsMarkedThroughout :=
  fun sub below => marked sub (mem_subtrees_node.2 (.inr ⟨child, among, below⟩))

/-! ## The census -/

mutual

/-- The nodes of a tree in the order of the text, each before those below it, and each with the
nodes above it, the next one first. The tree itself lies below the nodes `above`. -/
def census (above : List Label) : Tree → List (Label × List Label)
  | node label children => (label, above) :: censusAmong (label :: above) children

/-- The nodes of neighbouring trees, one tree after the other. -/
def censusAmong (above : List Label) : List Tree → List (Label × List Label)
  | [] => []
  | tree :: rest => census above tree ++ censusAmong above rest

end

/-- The errors and missing nodes of a tree with no such node above them, in the order of the
text. -/
def outermostFaults (tree : Tree) : List Label :=
  ((tree.census []).filter fun place => place.1.isFault && !place.2.any Label.isFault).map Prod.fst

/-- The nodes of neighbouring trees are those of each. -/
theorem censusAmong_eq (above : List Label) (trees : List Tree) :
    censusAmong above trees = trees.flatMap (census above) := by
  induction trees with
  | nil => rfl
  | cons tree rest ih => rw [censusAmong, ih, List.flatMap_cons]

/-- A tree below other nodes has the same nodes, with those above them too. -/
theorem census_eq_map (above : List Label) (tree : Tree) :
    tree.census above = (tree.census []).map fun place => (place.1, place.2 ++ above) := by
  induction tree using bottomUp generalizing above with
  | node label children ih =>
    have lower : ∀ child ∈ children, child.census (label :: above) =
        (child.census [label]).map fun place => (place.1, place.2 ++ above) := fun child among => by
      rw [ih child among (label :: above), ih child among [label], List.map_map]
      exact List.map_congr_left fun place _ => by simp
    rw [census, census, censusAmong_eq, censusAmong_eq, List.map_cons, List.map_flatMap,
      List.flatMap_congr lower, List.nil_append]

/-- A fault is the only outermost one of its tree, and below any other node are those of the trees
right below it. -/
theorem outermostFaults_node (label : Label) (children : List Tree) :
    (node label children).outermostFaults =
      if label.isFault then [label] else children.flatMap outermostFaults := by
  -- What the census of a child gives depends on whether the node above it is a fault.
  have below : ∀ child : Tree, ((child.census [label]).filter fun place =>
      place.1.isFault && !place.2.any Label.isFault).map Prod.fst =
        if label.isFault then [] else child.outermostFaults := fun child => by
    rw [census_eq_map, List.filter_map, List.map_map]
    split
    · rename_i fault
      simp [Function.comp_def, fault]
    · rename_i sound
      simp [Function.comp_def, sound, outermostFaults]
  have lower : ((censusAmong [label] children).filter fun place =>
      place.1.isFault && !place.2.any Label.isFault).map Prod.fst =
        if label.isFault then [] else children.flatMap outermostFaults := by
    rw [censusAmong_eq, List.filter_flatMap, List.map_flatMap,
      List.flatMap_congr fun child _ => below child]
    split
    · simp
    · rfl
  rw [outermostFaults, census]
  split
  · rename_i fault
    rw [List.filter_cons_of_pos (by simp [fault]), List.map_cons, lower, if_pos fault]
  · rename_i sound
    rw [List.filter_cons_of_neg (by simp [sound]), lower, if_neg sound]

/-- Every outermost fault of a tree is a fault at the top of a subtree. -/
theorem exists_of_mem_outermostFaults (among : label ∈ tree.outermostFaults) :
    label.isFault = true ∧ ∃ sub ∈ tree.subtrees, sub.label = label := by
  induction tree using bottomUp with
  | node top children ih =>
    rw [outermostFaults_node] at among
    split at among
    · rename_i fault
      obtain rfl := List.mem_singleton.1 among
      exact ⟨fault, _, self_mem_subtrees _, rfl⟩
    · obtain ⟨child, inside, found⟩ := List.mem_flatMap.1 among
      obtain ⟨fault, sub, below, same⟩ := ih child inside found
      exact ⟨fault, sub, mem_subtrees_node.2 (.inr ⟨child, inside, below⟩), same⟩

/-- A tree without outermost faults has no fault. -/
theorem isFault_eq_false (none : tree.outermostFaults = []) {sub : Tree}
    (below : sub ∈ tree.subtrees) : sub.label.isFault = false := by
  induction tree using bottomUp with
  | node top children ih =>
    rw [outermostFaults_node] at none
    split at none
    · cases none
    · rename_i sound
      rcases mem_subtrees_node.1 below with rfl | ⟨child, among, deeper⟩
      · exact Bool.eq_false_iff.2 sound
      · exact ih child among (List.flatMap_eq_nil_iff.1 none child among) deeper

/-- A tree has an outermost fault exactly if its top tells of an error. -/
theorem IsMarked.hasError_iff (marked : tree.IsMarked) :
    tree.label.hasError = true ↔ tree.outermostFaults ≠ [] := by
  rw [isMarked_iff.1 marked, List.any_eq_true]
  constructor
  · rintro ⟨sub, below, fault⟩ none
    rw [isFault_eq_false none below] at fault
    cases fault
  · intro some
    obtain ⟨label, among⟩ := List.exists_mem_of_ne_nil _ some
    obtain ⟨fault, sub, below, rfl⟩ := exists_of_mem_outermostFaults among
    exact ⟨sub, below, fault⟩

end DiagnosticServer.Tree
