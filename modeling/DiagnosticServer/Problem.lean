/-!
# Problems found in a text

Positions are counted as compilers print them, lines and columns from one, columns in UTF-16 code
units. An editor counts both from zero. A problem without a place is shown at the start of its
document.
-/

namespace DiagnosticServer

/-- A line and a column, both counted from one. -/
structure Position where
  /-- The line. -/
  line : Nat
  /-- The column, in UTF-16 code units. -/
  column : Nat
deriving DecidableEq, Repr

/-- A place in a text, from `start` up to and without `stop`. -/
structure Range where
  /-- The first position. -/
  start : Position
  /-- The position after the last. -/
  stop : Position
deriving DecidableEq, Repr

/-- What is wrong with a text, and where. -/
structure Problem where
  /-- The place, if there is one. -/
  place : Option Range
  /-- The words. -/
  message : String
deriving DecidableEq, Repr

/-- A line and a character, both counted from zero, as editors do. -/
structure EditorPosition where
  /-- The line. -/
  line : Nat
  /-- The number of UTF-16 code units before the position in its line. -/
  character : Nat
deriving DecidableEq, Repr

/-- A place in a document open in an editor. -/
structure EditorRange where
  /-- The first position. -/
  start : EditorPosition
  /-- The position after the last. -/
  stop : EditorPosition
deriving DecidableEq, Repr

namespace Position

/-- Positions are ordered by line, then by column. -/
def compare (a b : Position) : Ordering :=
  (Ord.compare a.line b.line).then (Ord.compare a.column b.column)

/-- The position as an editor counts it. A zero, which no text has, is read as a one. -/
def toEditor (position : Position) : EditorPosition :=
  ⟨position.line - 1, position.column - 1⟩

end Position

namespace Range

/-- The range as an editor counts it. -/
def toEditor (range : Range) : EditorRange := ⟨range.start.toEditor, range.stop.toEditor⟩

end Range

namespace Problem

/-- A problem of the whole document. -/
def unlocated (message : String) : Problem := ⟨none, message⟩

/-- Where an editor shows a problem. -/
def editorRange (problem : Problem) : EditorRange :=
  match problem.place with
  | some range => range.toEditor
  | none => ⟨⟨0, 0⟩, ⟨0, 0⟩⟩

/-- The problem in one line, led by the position where it starts. -/
def describe (problem : Problem) : String :=
  match problem.place with
  | some range =>
    let line := range.start.line
    let column := range.start.column
    let message := problem.message
    s!"{line}:{column}: {message}"
  | none => problem.message

end Problem

end DiagnosticServer
