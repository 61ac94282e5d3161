/-!
# Syntax trees

What a grammar makes of a text. A grammar that meets an error goes on: it puts what it could not
read under an error node, and a missing node where something had to be for the rest to make sense.
Every node also tells whether an error or missing node lies in it, which lets sound subtrees be
skipped.
-/

namespace DiagnosticServer

/-- A row and a column of a text, both counted from zero, the column in octets. -/
structure Point where
  /-- The number of line feeds before the point. -/
  row : Nat
  /-- The number of octets between the start of the row and the point. -/
  column : Nat
deriving DecidableEq, Repr

/-- What a node tells about itself. -/
structure Label where
  /-- The name of the grammar's rule or token. -/
  kind : String
  /-- Whether the grammar gives the node a name, as it does not for punctuation. -/
  isNamed : Bool
  /-- Whether the node holds what could not be read. -/
  isError : Bool
  /-- Whether the node stands for something that is not in the text. -/
  isMissing : Bool
  /-- Whether the node or one below it is an error or missing. -/
  hasError : Bool
  /-- The byte offset where the node starts. -/
  startByte : Nat
  /-- The byte offset after the node. -/
  stopByte : Nat
  /-- The point where the node starts. -/
  start : Point
  /-- The point after the node. -/
  stop : Point
deriving DecidableEq, Repr

/-- A node with the nodes below it, in the order of the text. -/
inductive Tree where
  /-- A node. -/
  | node (label : Label) (children : List Tree)
deriving Repr

namespace Tree

/-- What the node at the top tells about itself. -/
def label : Tree → Label
  | node label _ => label

/-- The nodes right below the top. -/
def children : Tree → List Tree
  | node _ children => children

/-- The first named node right below the top that passes a test on its kind. -/
def findNamed (tree : Tree) (test : String → Bool) : Option Tree :=
  tree.children.find? fun child => child.label.isNamed && test child.label.kind

end Tree

end DiagnosticServer
