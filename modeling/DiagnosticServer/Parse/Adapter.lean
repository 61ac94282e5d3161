import DiagnosticServer.Identity
import DiagnosticServer.Parse.Outcome

/-!
# Parsing one file

Parsing a file has three parts: finding its text and the source roots known now, running the parser
on them, and drawing the outcome from its verdict. A file that cannot be read, a text that is
rejected without a reason, and a parser that crashes all end in an outcome with a problem to show.
Only a success reveals source roots, and they become known when the parse ends.
-/

namespace DiagnosticServer

/-- What a parser is run on. -/
structure Call where
  /-- The text. -/
  text : String
  /-- The source roots known when the run starts. -/
  roots : SourceRoots

namespace Parse

variable {α : Type}

/-- What the parser is to be run on: the text open in the editor, if there is one, or else the text
of the file. A file that cannot be read has an outcome at once. -/
def prepare (files : FileSystem) (roots : SourceRoots) (id : Identity) (overlay : Option String) :
    Except (Outcome α) Call :=
  match overlay with
  | some text => .ok ⟨text, roots⟩
  | none =>
    match files.load id.path with
    | .ok text => .ok ⟨text, roots⟩
    | .error cause =>
      let name := id.text
      let reason := cause.message
      .error (.refusal s!"cannot read {name}: {reason}")

/-- The outcome that a verdict amounts to. -/
def conclude (id : Identity) : Verdict α → Outcome α
  | .accepted tree roots => .success tree roots
  | .rejected [] =>
    let name := id.text
    .refusal s!"{name} could not be parsed"
  | .rejected problems => .failure problems
  | .crashed reason =>
    let words := reason.getD "unknown panic"
    .refusal s!"parser crashed: {words}"

/-- The outcome of running a parser. -/
def run (parser : Parser α) (id : Identity) (call : Call) : Outcome α :=
  conclude id (parser id.path call.text call.roots)

/-- The outcome of parsing a file, and the source roots known afterwards. -/
def file (parser : Parser α) (files : FileSystem) (roots : SourceRoots) (id : Identity)
    (overlay : Option String) : Outcome α × SourceRoots :=
  match prepare files roots id overlay with
  | .error outcome => (outcome, roots)
  | .ok call =>
    let outcome := run parser id call
    (outcome, roots.registerAll outcome.revealed)

end Parse

end DiagnosticServer
