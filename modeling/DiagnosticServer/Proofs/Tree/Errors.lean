import Mathlib.Logic.Function.Iterate
import DiagnosticServer.Proofs.Text.Rows
import DiagnosticServer.Proofs.Tree.Nodes
import DiagnosticServer.Tree.Faults

/-!
# What a search for errors finds

In a tree that is marked throughout, a search finds the outermost faults, in the order of the text
and each of them once. The invariant is `Search.goal`, what has been found followed by the outermost
faults of the trees on the stack: no turn changes it, and it is what has been found when the stack
is empty. If the nodes of the tree lie in a text as a grammar puts them there, the faults are found
in the order of their offsets, and the problems made of them are in the order of their positions.
-/

namespace DiagnosticServer.Tree

variable {text : List Char} {tree : Tree} {label : Label} {children : List Tree}

/-! ## The search -/

namespace Search

variable {search next : Search}

/-- What a search is to find: what it has found, and the outermost faults of the trees on its
stack. -/
def goal (search : Search) : List Label := search.found ++ search.stack.flatMap outermostFaults

/-- Every tree on the stack of a search is marked throughout. -/
def IsMarked (search : Search) : Prop := ∀ tree ∈ search.stack, tree.IsMarkedThroughout

/-- A turn leaves nothing but marked trees on the stack. -/
theorem Turn.isMarked (turn : Turn search next) (marked : search.IsMarked) : next.IsMarked := by
  cases turn with
  | fault faulty => exact (List.forall_mem_cons.1 marked).2
  | inner sound told =>
    obtain ⟨first, others⟩ := List.forall_mem_cons.1 marked
    exact List.forall_mem_append.2 ⟨fun child => first.of_mem, others⟩
  | clean sound untold => exact (List.forall_mem_cons.1 marked).2

/-- A turn does not change what is to be found. -/
theorem Turn.goal_eq (turn : Turn search next) (marked : search.IsMarked) :
    next.goal = search.goal := by
  cases turn with
  | @fault found rest label children faulty =>
    -- A fault hides what lies below it.
    have top : (node label children).outermostFaults = [label] := by
      rw [outermostFaults_node, if_pos faulty]
    simp only [goal, List.flatMap_cons, top, List.append_assoc]
  | @inner found rest label children sound told =>
    have top : (node label children).outermostFaults = children.flatMap outermostFaults := by
      rw [outermostFaults_node, if_neg (Bool.eq_false_iff.1 sound)]
    simp only [goal, List.flatMap_append, List.flatMap_cons, top]
  | @clean found rest label children sound untold =>
    -- A tree that tells of no error has none.
    have first : (node label children).IsMarked :=
      marked _ List.mem_cons_self _ (self_mem_subtrees _)
    have none : (node label children).outermostFaults = [] := by
      by_contra some
      exact Bool.eq_false_iff.1 untold (first.hasError_iff.2 some)
    simp only [goal, List.flatMap_cons, none, List.nil_append]

/-- A search comes to an end, after no more turns than there are nodes on its stack, and has found
what it was to find. -/
theorem exists_turns (marked : search.IsMarked) :
    ∃ turns ≤ sizeAmong search.stack, turn^[turns] search = ⟨search.goal, []⟩ := by
  -- Induction on the number of nodes on the stack, of which every turn leaves fewer.
  induction size : sizeAmong search.stack using Nat.strongRecOn generalizing search with
  | ind count ih =>
    by_cases done : search.stack = []
    · refine ⟨0, Nat.zero_le _, ?_⟩
      obtain ⟨found, stack⟩ := search
      obtain rfl : stack = [] := done
      simp [goal]
    · have taken := turn_spec done
      have fewer := taken.sizeAmong_lt
      obtain ⟨turns, bound, ends⟩ := ih _ (size ▸ fewer) (taken.isMarked marked) rfl
      refine ⟨turns + 1, by omega, ?_⟩
      rw [Function.iterate_succ_apply, ends, taken.goal_eq marked]

/-- What a search finds does not depend on turns that were taken before. -/
theorem run_iterate_turn (search : Search) (turns : Nat) :
    (turn^[turns] search).run = search.run := by
  induction turns generalizing search with
  | zero => rfl
  | succ turns ih =>
    rw [Function.iterate_succ_apply, ih]
    by_cases done : search.stack = []
    · obtain ⟨found, stack⟩ := search
      obtain rfl : stack = [] := done
      rfl
    · rw [run.eq_def search, if_neg done]

/-- A search finds what it is to find. -/
theorem run_eq_goal (marked : search.IsMarked) : search.run = search.goal := by
  obtain ⟨turns, -, ends⟩ := exists_turns marked
  rw [← run_iterate_turn search turns, ends, run.eq_def, if_pos rfl]

end Search

/-- A search may start with a tree alone that is marked throughout. -/
theorem IsMarkedThroughout.start (marked : tree.IsMarkedThroughout) :
    Search.IsMarked ⟨[], [tree]⟩ :=
  List.forall_mem_singleton.2 marked

/-- A search that starts with a tree alone is to find its outermost faults. -/
theorem goal_start (tree : Tree) : Search.goal ⟨[], [tree]⟩ = tree.outermostFaults := by
  simp [Search.goal]

/-- In a tree that is marked throughout the outermost faults are found. -/
theorem faults_eq (marked : tree.IsMarkedThroughout) : tree.faults = tree.outermostFaults := by
  rw [faults, Search.run_eq_goal marked.start, goal_start]

/-- If a tree that is marked throughout tells of an error, its problems are those of its outermost
faults. -/
theorem problems_eq (marked : tree.IsMarkedThroughout) (told : tree.label.hasError = true) :
    tree.problems text = tree.outermostFaults.map (Label.problem text) := by
  have some := (marked tree (self_mem_subtrees tree)).hasError_iff.1 told
  rw [problems, faults_eq marked]
  cases found : tree.outermostFaults with
  | nil => exact absurd found some
  | cons first rest => rfl

/-! ## Trees in a text -/

/-- How a node lies in a text: between boundaries of characters, at the points of its offsets, and
around the nodes right below it, which lie side by side in their order. -/
structure LiesIn (text : List Char) (tree : Tree) : Prop where
  /-- The offsets are boundaries of characters, the first no later than the second. -/
  spelled : (tree.label.spelling text).isSome = true
  /-- The node starts at the point of its first offset. -/
  start : Point.ofOffset? text tree.label.startByte = some tree.label.start
  /-- The node stops at the point of its second offset. -/
  stop : Point.ofOffset? text tree.label.stopByte = some tree.label.stop
  /-- The nodes right below lie inside. -/
  inside : ∀ child ∈ tree.children,
    tree.label.startByte ≤ child.label.startByte ∧ child.label.stopByte ≤ tree.label.stopByte
  /-- Each of them stops before the next ones start. -/
  apart : tree.children.Pairwise fun a b => a.label.stopByte ≤ b.label.startByte

instance (text : List Char) (tree : Tree) : Decidable (tree.LiesIn text) :=
  decidable_of_iff
    ((tree.label.spelling text).isSome = true ∧
      Point.ofOffset? text tree.label.startByte = some tree.label.start ∧
      Point.ofOffset? text tree.label.stopByte = some tree.label.stop ∧
      (∀ child ∈ tree.children, tree.label.startByte ≤ child.label.startByte ∧
        child.label.stopByte ≤ tree.label.stopByte) ∧
      tree.children.Pairwise fun a b => a.label.stopByte ≤ b.label.startByte)
    ⟨fun ⟨a, b, c, d, e⟩ => ⟨a, b, c, d, e⟩, fun ⟨a, b, c, d, e⟩ => ⟨a, b, c, d, e⟩⟩

/-- Every node of a tree lies in a text as it should. -/
def IsPlaced (text : List Char) (tree : Tree) : Prop := ∀ sub ∈ tree.subtrees, sub.LiesIn text

instance (text : List Char) (tree : Tree) : Decidable (tree.IsPlaced text) :=
  inferInstanceAs (Decidable (∀ sub ∈ tree.subtrees, sub.LiesIn text))

/-- A node stops no earlier than it starts. -/
theorem LiesIn.start_le_stop (lies : tree.LiesIn text) :
    tree.label.startByte ≤ tree.label.stopByte := by
  have spelled := lies.spelled
  unfold Label.spelling Text.slice at spelled
  split at spelled
  · assumption
  · cases spelled

/-- The children of a tree that is placed in a text are placed in it. -/
theorem IsPlaced.of_mem (placed : (node label children).IsPlaced text) {child : Tree}
    (among : child ∈ children) : child.IsPlaced text :=
  fun sub below => placed sub (mem_subtrees_node.2 (.inr ⟨child, among, below⟩))

/-- A subtree lies between the offsets of its tree. -/
theorem IsPlaced.within (placed : tree.IsPlaced text) {sub : Tree} (below : sub ∈ tree.subtrees) :
    tree.label.startByte ≤ sub.label.startByte ∧ sub.label.stopByte ≤ tree.label.stopByte := by
  induction tree using bottomUp with
  | node top children ih =>
    rcases mem_subtrees_node.1 below with rfl | ⟨child, among, deeper⟩
    · exact ⟨Nat.le_refl _, Nat.le_refl _⟩
    · have outer := (placed _ (self_mem_subtrees _)).inside child among
      have inner := ih child among (placed.of_mem among) deeper
      exact ⟨Nat.le_trans outer.1 inner.1, Nat.le_trans inner.2 outer.2⟩

/-- The outermost faults of a tree that is placed in a text are in the order of their offsets. -/
theorem IsPlaced.pairwise_outermostFaults (placed : tree.IsPlaced text) :
    tree.outermostFaults.Pairwise fun a b => a.startByte ≤ b.startByte := by
  induction tree using bottomUp with
  | node top children ih =>
    rw [outermostFaults_node]
    split
    · exact List.pairwise_singleton _ _
    · refine List.pairwise_flatMap.2 ⟨fun child among => ih child among (placed.of_mem among), ?_⟩
      have apart := (placed _ (self_mem_subtrees _)).apart
      refine apart.imp_of_mem fun {a b} left right le x inLeft y inRight => ?_
      -- The first fault stops before its child does, and the second starts in a later one.
      obtain ⟨-, first, below, rfl⟩ := exists_of_mem_outermostFaults inLeft
      obtain ⟨-, second, below', rfl⟩ := exists_of_mem_outermostFaults inRight
      calc first.label.startByte
          ≤ first.label.stopByte := (placed.of_mem left first below).start_le_stop
        _ ≤ a.label.stopByte := ((placed.of_mem left).within below).2
        _ ≤ b.label.startByte := le
        _ ≤ second.label.startByte := ((placed.of_mem right).within below').1

/-- The problems of the outermost faults of a tree that is placed in a text are in the order of
their positions. -/
theorem IsPlaced.pairwise_positions (placed : tree.IsPlaced text)
    (short : Text.octetCount text < UInt32.size - 1) :
    tree.outermostFaults.Pairwise fun a b =>
      ((a.place text).start.compare (b.place text).start).isLE = true := by
  refine placed.pairwise_outermostFaults.imp_of_mem fun {a b} first second le => ?_
  obtain ⟨-, sub, below, rfl⟩ := exists_of_mem_outermostFaults first
  obtain ⟨-, other, below', rfl⟩ := exists_of_mem_outermostFaults second
  exact Point.position_isLE_of_le (placed sub below).start (placed other below').start le short

/-- In a tree in which every node tells truly whether an error or missing node lies in it, the
search for errors ends after at most as many turns as the tree has nodes. It has then found the
errors and missing nodes that lie in no other such node, each once and in the order of the text. If
the tree has an error, each of them is made one problem, all of them located, and there is at least
one. If the nodes lie in a text of fewer than `2 ^ 32 - 1` octets as they should, the problems start
at positions that never decrease. -/
theorem errors_reported_in_order (text : List Char) {tree : Tree}
    (marked : tree.IsMarkedThroughout) :
    (∃ turns ≤ tree.size, Search.turn^[turns] ⟨[], [tree]⟩ = ⟨tree.outermostFaults, []⟩) ∧
    tree.faults = tree.outermostFaults ∧
    (tree.label.hasError = true →
      tree.problems text = tree.outermostFaults.map (Label.problem text) ∧
      tree.problems text ≠ [] ∧ ∀ problem ∈ tree.problems text, problem.place.isSome = true) ∧
    (tree.IsPlaced text → Text.octetCount text < UInt32.size - 1 →
      (tree.problems text).Pairwise fun a b => ∀ p ∈ a.place, ∀ q ∈ b.place,
        (p.start.compare q.start).isLE = true) := by
  have told := (marked tree (self_mem_subtrees tree)).hasError_iff
  refine ⟨?_, faults_eq marked, fun error => ?_, fun placed short => ?_⟩
  · obtain ⟨turns, bound, ends⟩ := Search.exists_turns marked.start
    refine ⟨turns, by simpa [sizeAmong] using bound, ?_⟩
    rw [ends, goal_start]
  · rw [problems_eq marked error]
    refine ⟨rfl, by simpa using told.1 error, fun problem among => ?_⟩
    obtain ⟨fault, -, rfl⟩ := List.mem_map.1 among
    rfl
  · by_cases error : tree.label.hasError = true
    · rw [problems_eq marked error]
      refine List.pairwise_map.2 ((placed.pairwise_positions short).imp fun {a b} le => ?_)
      rintro p ⟨⟩ q ⟨⟩
      exact le
    · -- Without an error there is a single problem.
      have none : tree.outermostFaults = [] := by
        by_contra some
        exact error (told.2 some)
      rw [problems, faults_eq marked, none]
      exact List.pairwise_singleton _ _

namespace Nested

/-- A text with a letter of two octets, an unreadable sign, and a bracket that nothing closes. -/
def source : List Char := "é ?\n(".toList

/-- A node of the text's tree. -/
def mark (kind : String) (isError isMissing hasError : Bool) (startByte stopByte : Nat)
    (start stop : Point) : Label :=
  ⟨kind, true, isError, isMissing, hasError, startByte, stopByte, start, stop⟩

/-- The error at the sign, which has another error inside. -/
def unread : Label := mark "ERROR" true false true 3 4 ⟨0, 3⟩ ⟨0, 4⟩

/-- The closing bracket, which is missing at the end of the text. -/
def unclosed : Label := mark ")" false true true 6 6 ⟨1, 1⟩ ⟨1, 1⟩

/-- The tree of the text, with errors at several depths. -/
def page : Tree :=
  .node (mark "program" false false true 0 6 ⟨0, 0⟩ ⟨1, 1⟩)
    [.node (mark "statement" false false true 0 4 ⟨0, 0⟩ ⟨0, 4⟩)
      [.node (mark "identifier" false false false 0 2 ⟨0, 0⟩ ⟨0, 2⟩) [],
        .node unread [.node unread []]],
      .node (mark "group" false false true 5 6 ⟨1, 0⟩ ⟨1, 1⟩)
        [.node (mark "(" false false false 5 6 ⟨1, 0⟩ ⟨1, 1⟩) [], .node unclosed []]]

end Nested

open Nested in
/-- An error inside another one is not reported again, and the bracket that is missing on the second
line comes after the error on the first. -/
theorem nested_error_reported_once :
    page.IsMarkedThroughout ∧ page.IsPlaced source ∧ Text.octetCount source < UInt32.size - 1 ∧
    page.problems source =
      [⟨some ⟨⟨1, 3⟩, ⟨1, 4⟩⟩, "syntax error: unexpected `?`"⟩,
        ⟨some ⟨⟨2, 2⟩, ⟨2, 2⟩⟩, "syntax error: missing `)`"⟩] ∧
    (page.problems source).Pairwise fun a b => ∀ p ∈ a.place, ∀ q ∈ b.place,
      (p.start.compare q.start).isLE = true := by
  have marked : page.IsMarkedThroughout := by decide
  have placed : page.IsPlaced source := by decide
  have short : Text.octetCount source < UInt32.size - 1 := by decide
  obtain ⟨-, -, reported, sorted⟩ := errors_reported_in_order source marked
  refine ⟨marked, placed, short, ?_, sorted placed short⟩
  rw [(reported rfl).1]
  decide

end DiagnosticServer.Tree
