import DiagnosticServer.Problem
import DiagnosticServer.SourceRoots

/-!
# Parsers and what comes of a parse

A parser is given a path, the text, and the source roots known at its start. It may succeed, reject
the text, or crash; whatever it does, what comes of the parse is an outcome: a tree, or problems to
show.
-/

namespace DiagnosticServer

/-- What a parser answers. -/
inductive Verdict (α : Type) where
  /-- The text is sound; the file reveals these source roots. -/
  | accepted (tree : α) (roots : List Path)
  /-- The text is not sound, for these reasons. -/
  | rejected (problems : List Problem)
  /-- The parser gave up, perhaps with a reason. -/
  | crashed (reason : Option String)

/-- A function from a path, its text, and the known source roots to a verdict. -/
abbrev Parser (α : Type) := Path → String → SourceRoots → Verdict α

/-- What is kept of a parse. -/
inductive Outcome (α : Type) where
  /-- A tree, and the source roots that the file reveals. -/
  | success (tree : α) (roots : List Path)
  /-- The reasons why there is no tree. -/
  | failure (problems : List Problem)

namespace Outcome

variable {α : Type}

/-- Whether the parse succeeded. -/
def isSuccess : Outcome α → Bool
  | success _ _ => true
  | failure _ => false

/-- The problems to show; a success has none. -/
def problems : Outcome α → List Problem
  | success _ _ => []
  | failure problems => problems

/-- The source roots that the file reveals; a failure reveals none. -/
def revealed : Outcome α → List Path
  | success _ roots => roots
  | failure _ => []

/-- The outcome with a single problem of the whole document. -/
def refusal (message : String) : Outcome α := failure [Problem.unlocated message]

end Outcome

end DiagnosticServer
