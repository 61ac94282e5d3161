import DiagnosticServer.Text.Blank
import DiagnosticServer.Tree.Place
import DiagnosticServer.Tree.Search

/-!
# Syntax errors as problems

Each error or missing node that lies in no other becomes one problem, in the order of the text. An
unreadable piece is quoted by the beginning of its first line that is not blank.
-/

namespace DiagnosticServer

/-- The most characters of a text that a message quotes. -/
def excerptLimit : Nat := 40

namespace Label

/-- The beginning of the first line of a node's text that is not blank. -/
def excerpt (text : List Char) (label : Label) : Option (List Char) := do
  let spelled ← label.spelling text
  let line ← ((spelled.splitOn '\n').map Text.trim).find? fun line => !line.isEmpty
  return line.take excerptLimit

/-- What is wrong at an error or missing node. -/
def faultMessage (text : List Char) (label : Label) : String :=
  if label.isMissing then
    let kind := label.kind
    s!"syntax error: missing `{kind}`"
  else
    match label.excerpt text with
    | some quoted =>
      let unexpected := String.ofList quoted
      s!"syntax error: unexpected `{unexpected}`"
    | none => "syntax error"

/-- The problem at an error or missing node. -/
def problem (text : List Char) (label : Label) : Problem :=
  ⟨some (label.place text), label.faultMessage text⟩

end Label

namespace Tree

/-- The problems of a text that does not follow its grammar. There is always at least one. -/
def problems (text : List Char) (tree : Tree) : List Problem :=
  match tree.faults with
  | [] => [Problem.unlocated "syntax error"]
  | faults => faults.map fun label => label.problem text

end Tree

end DiagnosticServer
