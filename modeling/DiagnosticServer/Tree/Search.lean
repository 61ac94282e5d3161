import DiagnosticServer.Tree.Basic

/-!
# Finding the errors of a tree

The search keeps a stack of the trees that it has still to look into, and takes one of them off at
each turn. Nothing below an error or missing node is looked into, as it belongs to the same error,
and neither is a tree that tells of no error. As the stack holds fewer nodes after each turn than
before, the search comes to an end, however deep the tree is.
-/

namespace DiagnosticServer

/-- Whether a node is an error or missing. -/
def Label.isFault (label : Label) : Bool := label.isMissing || label.isError

namespace Tree

mutual

/-- The number of nodes of a tree. -/
def size : Tree → Nat
  | node _ children => sizeAmong children + 1

/-- The number of nodes of several trees. -/
def sizeAmong : List Tree → Nat
  | [] => 0
  | tree :: rest => size tree + sizeAmong rest

end

/-- Several trees have as many nodes as the first and the others. -/
theorem sizeAmong_append (trees more : List Tree) :
    sizeAmong (trees ++ more) = sizeAmong trees + sizeAmong more := by
  induction trees with
  | nil => simp [sizeAmong]
  | cons tree rest ih => simp [sizeAmong, ih, Nat.add_assoc]

/-- How far a search for errors has come. -/
structure Search where
  /-- The errors and missing nodes found so far, in the order in which they were found. -/
  found : List Label
  /-- The trees still to be looked into, the next one on top. -/
  stack : List Tree

namespace Search

/-- A stack after trees were pushed onto it one after the other. -/
def pushAll (stack more : List Tree) : List Tree :=
  more.foldl (fun stack tree => tree :: stack) stack

/-- One turn of a search, which takes the tree on top off the stack. If a sound node has an error
below it, its children are pushed from the last to the first, so that the first is looked into
next. -/
def turn (search : Search) : Search :=
  match search.stack with
  | [] => search
  | node label children :: rest =>
    if label.isFault then ⟨search.found ++ [label], rest⟩
    else if label.hasError then ⟨search.found, pushAll rest children.reverse⟩
    else ⟨search.found, rest⟩

/-- Trees pushed from the last to the first stand on the stack in their order. -/
@[simp]
theorem pushAll_reverse (stack children : List Tree) :
    pushAll stack children.reverse = children ++ stack := by
  induction children with
  | nil => rfl
  | cons tree rest ih =>
    rw [pushAll] at ih ⊢
    rw [List.reverse_cons, List.foldl_append, ih]
    rfl

/-- What a turn makes of a search that has not come to its end. -/
inductive Turn : Search → Search → Prop where
  /-- The node on top is a fault, and what lies below it is left out. -/
  | fault {found rest label children} (faulty : label.isFault = true) :
      Turn ⟨found, node label children :: rest⟩ ⟨found ++ [label], rest⟩
  /-- The node on top tells of an error below it, and its children take its place. -/
  | inner {found rest label children} (sound : label.isFault = false)
      (told : label.hasError = true) :
      Turn ⟨found, node label children :: rest⟩ ⟨found, children ++ rest⟩
  /-- The node on top tells of no error, and is left out with what lies below it. -/
  | clean {found rest label children} (sound : label.isFault = false)
      (untold : label.hasError = false) :
      Turn ⟨found, node label children :: rest⟩ ⟨found, rest⟩

/-- Every turn is one of the three kinds, as long as there is a tree on the stack. -/
theorem turn_spec {search : Search} (left : search.stack ≠ []) : Turn search search.turn := by
  obtain ⟨found, stack⟩ := search
  cases stack with
  | nil => contradiction
  | cons tree rest =>
    obtain ⟨label, children⟩ := tree
    unfold turn
    simp only [pushAll_reverse]
    split
    · exact .fault ‹_›
    · rename_i sound
      split
      · exact .inner (Bool.eq_false_iff.2 sound) ‹_›
      · rename_i untold
        exact .clean (Bool.eq_false_iff.2 sound) (Bool.eq_false_iff.2 untold)

/-- A turn leaves fewer nodes on the stack. -/
theorem Turn.sizeAmong_lt {search next : Search} (turn : Turn search next) :
    sizeAmong next.stack < sizeAmong search.stack := by
  cases turn with
  | fault => simp only [sizeAmong, size]; omega
  | inner => simp only [sizeAmong, size, sizeAmong_append]; omega
  | clean => simp only [sizeAmong, size]; omega

/-- What a search has found when its stack is empty. -/
def run (search : Search) : List Label :=
  if search.stack = [] then search.found else run search.turn
termination_by sizeAmong search.stack
decreasing_by exact (turn_spec ‹_›).sizeAmong_lt

end Search

/-- The errors and missing nodes of a tree that lie in no other such node, in the order of the
text. -/
def faults (tree : Tree) : List Label := Search.run ⟨[], [tree]⟩

end Tree

end DiagnosticServer
