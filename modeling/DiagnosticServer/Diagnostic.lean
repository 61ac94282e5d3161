import DiagnosticServer.Identity
import DiagnosticServer.Options
import DiagnosticServer.Parse.Outcome

/-!
# Diagnostics

What an editor shows of an outcome. The same diagnostics are pushed after a parse and given in
answer to a pull, so the two views of one outcome cannot differ. A report is known by the revision
of its outcome, and a client that already has that revision is told so instead of being sent it
again.
-/

namespace DiagnosticServer

/-- An error shown in an editor. -/
structure Diagnostic where
  /-- Where it is shown. -/
  range : EditorRange
  /-- Who found it. -/
  source : String
  /-- The words. -/
  message : String
deriving DecidableEq, Repr

namespace Diagnostic

/-- The diagnostic of a problem. -/
def ofProblem (source : String) (problem : Problem) : Diagnostic :=
  ⟨problem.editorRange, source, problem.message⟩

/-- The diagnostics of an outcome, one for each problem in order. -/
def ofOutcome {α : Type} (source : String) (outcome : Outcome α) : List Diagnostic :=
  outcome.problems.map (ofProblem source)

end Diagnostic

/-- The answer to a pull. -/
inductive Report where
  /-- All diagnostics, and the name of the report. -/
  | full (resultId : String) (items : List Diagnostic)
  /-- The client has the report of that name. -/
  | unchanged (resultId : String)
deriving DecidableEq, Repr

namespace Report

/-- The name of the report on a revision: its decimal digits. -/
def nameOf (revision : Nat) : String := toString revision

/-- The report on an outcome and its revision, for a client that has the report named `previous`. -/
def ofOutcome {α : Type} (source : String) (revision : Nat) (outcome : Outcome α)
    (previous : Option String) : Report :=
  if previous = some (nameOf revision) then .unchanged (nameOf revision)
  else .full (nameOf revision) (Diagnostic.ofOutcome source outcome)

end Report

/-- A message to the client that asks for no answer. -/
inductive Notification where
  /-- The diagnostics of a document, in place of those sent before. -/
  | diagnostics (uri : Uri) (items : List Diagnostic)
  /-- A line for the client's log. -/
  | log (line : String)
  /-- A line for the client's log that tells of the server itself. -/
  | info (line : String)
deriving DecidableEq, Repr

namespace Notification

/-- Whether a message is a line for the client's log. -/
def isLogged : Notification → Bool
  | diagnostics _ _ => false
  | log _ | info _ => true

/-- What the client is told of a new outcome. The diagnostics go to the URI under which the client
opened the document, or else to the URI of the file; a file that has no URI is passed over. A
success clears the diagnostics and is logged. Nobody waits for the messages to arrive. -/
def announce {α : Type} (files : FileSystem) (options : Options) (id : Identity)
    (opened : Option Uri) (outcome : Outcome α) : List Notification :=
  match opened <|> id.toUri? files with
  | none => []
  | some uri =>
    let name := id.text
    .diagnostics uri (Diagnostic.ofOutcome options.diagnosticSource outcome) ::
      if outcome.isSuccess && options.logParses then [.log s!"{name} parsed"] else []

end Notification

end DiagnosticServer
