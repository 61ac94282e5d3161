import DiagnosticServer.Parse.Outcome
import DiagnosticServer.Text.Utf8

/-!
# A language of scripts

A toy language whose texts say themselves what a parser should make of them, line by line. It
exercises everything around a parser without a grammar: problems with and without a place, source
roots, empty rejections, and crashes.
-/

namespace DiagnosticServer.Script

/-- A sound script, of which nothing is kept. -/
structure Document where
deriving DecidableEq, Repr

/-- What is left of a text after a beginning, if it begins so. -/
def after? (beginning : String) (text : List Char) : Option (List Char) :=
  if beginning.toList.isPrefixOf text then some (text.drop beginning.length) else none

/-- The source root that a line names. -/
def rootOf? (line : List Char) : Option Path :=
  (after? "ROOT " line).map fun name => .mk (String.ofList name)

/-- The problem of a line, given its number: an exclamation mark is unexpected where it first
stands, and a line that begins with a question mark is a problem of the whole script. -/
def problemOf? (number : Nat) (line : List Char) : Option Problem :=
  if (rootOf? line).isSome then none
  else if line.contains '!' then
    let column := Text.octetCount (line.takeWhile (· != '!')) + 1
    some ⟨some ⟨⟨number, column⟩, ⟨number, column + 1⟩⟩, "unexpected '!'"⟩
  else if line.head? = some '?' then some (Problem.unlocated (String.ofList line))
  else none

/-- The verdict on the lines of a script. -/
def check (lines : List (List Char)) : Verdict Document :=
  match (lines.zipIdx 1).filterMap fun (line, number) => problemOf? number line with
  | [] => .accepted ⟨⟩ (lines.filterMap rootOf?)
  | problems => .rejected problems

/-- The parser of scripts. -/
def parser : Parser Document := fun _ text _ =>
  if text = "PANIC static" then .crashed (some "boom")
  else if text = "PANIC any" then .crashed none
  else if text = "EMPTY" then .rejected []
  else
    match after? "PANIC " text.toList with
    | some reason => .crashed (some (String.ofList reason))
    | none => check (text.toList.splitOn '\n')

end DiagnosticServer.Script
