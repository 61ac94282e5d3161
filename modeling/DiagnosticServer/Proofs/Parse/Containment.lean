import DiagnosticServer.FileSystem.Edit
import DiagnosticServer.Parse.Adapter
import DiagnosticServer.Proofs.SourceRoots
import DiagnosticServer.Script

/-!
# What comes of parsing a file

A parser may do what it likes and a disk may hold anything: parsing a file ends in an outcome, and
one without problems is a success. The text open in the editor hides the disk. Without one the disk
matters only for the text that is read from it, and a file that cannot be read never gets to a
parser. The known roots are handed to the parser as they are, and change only if it accepts.
-/

namespace DiagnosticServer.Parse

variable {α : Type} {parser : Parser α} {files : FileSystem} {roots : SourceRoots}
  {id : Identity} {overlay : Option String} {text : String} {tree : α} {hints : List Path}

/-- A parse finds its text: it is open in the editor, or else it can be read from the disk. -/
def Finds (files : FileSystem) (id : Identity) (overlay : Option String) (text : String) : Prop :=
  overlay = some text ∨ overlay = none ∧ files.load id.path = .ok text

/-- The outcome of a file that cannot be read. -/
def unreadable (id : Identity) (cause : Error) : Outcome α :=
  .refusal ("cannot read " ++ id.text ++ ": " ++ cause.message)

/-- The parser is given the text that was found and the roots known before. -/
theorem prepare_of_finds (found : Finds files id overlay text) :
    (prepare files roots id overlay : Except (Outcome α) Call) = .ok ⟨text, roots⟩ := by
  unfold prepare
  rcases found with shown | ⟨hidden, loaded⟩
  · rw [shown]
  · rw [hidden, loaded]

/-- A file that is not open and cannot be read has its outcome before a parser is run. -/
theorem prepare_of_unreadable {cause : Error} (unread : files.load id.path = .error cause) :
    prepare files roots id none = .error (unreadable id cause : Outcome α) := by
  unfold prepare
  rw [unread]
  rfl

/-- Parsing a file whose text is found is running the parser once, on that text and the roots known
before. -/
theorem file_of_finds (found : Finds files id overlay text) :
    file parser files roots id overlay =
      (conclude id (parser id.path text roots),
        roots.registerAll (conclude id (parser id.path text roots)).revealed) := by
  unfold file
  rw [prepare_of_finds found]
  rfl

/-- Parsing a file that is not open and cannot be read ends with its outcome, and no root becomes
known. -/
theorem file_of_unreadable {cause : Error} (unread : files.load id.path = .error cause) :
    file parser files roots id none = (unreadable id cause, roots) := by
  unfold file
  rw [prepare_of_unreadable unread]

/-- A text is found, or the file is not open and cannot be read. -/
theorem finds_or_unreadable (files : FileSystem) (id : Identity) (overlay : Option String) :
    (∃ text, Finds files id overlay text) ∨
      overlay = none ∧ ∃ cause, files.load id.path = .error cause := by
  rcases overlay with _ | text
  · rcases loaded : files.load id.path with cause | text
    · exact .inr ⟨rfl, cause, rfl⟩
    · exact .inl ⟨text, .inr ⟨rfl, loaded⟩⟩
  · exact .inl ⟨text, .inl rfl⟩

/-- Only an accepted text is concluded to be a success. -/
theorem conclude_eq_success_iff {verdict : Verdict α} :
    conclude id verdict = .success tree hints ↔ verdict = .accepted tree hints := by
  unfold conclude
  split <;> simp [Outcome.refusal]

/-- An outcome that is no success has a problem. -/
theorem problems_conclude_eq_nil_iff (verdict : Verdict α) :
    (conclude id verdict).problems = [] ↔ (conclude id verdict).isSuccess = true := by
  rcases verdict with ⟨tree, hints⟩ | ⟨_ | ⟨problem, more⟩⟩ | reason
  · exact iff_of_true rfl rfl
  · -- A rejection without a problem is given one, like a crash.
    exact iff_of_false (List.cons_ne_nil _ _) Bool.false_ne_true
  · exact iff_of_false (List.cons_ne_nil _ _) Bool.false_ne_true
  · exact iff_of_false (List.cons_ne_nil _ _) Bool.false_ne_true

/-- Parsing a file ends without problems exactly if it is a success. -/
theorem problems_file_eq_nil_iff : (file parser files roots id overlay).1.problems = [] ↔
    (file parser files roots id overlay).1.isSuccess = true := by
  rcases finds_or_unreadable files id overlay with ⟨text, found⟩ | ⟨rfl, cause, unread⟩
  · rw [file_of_finds found]
    exact problems_conclude_eq_nil_iff _
  · rw [file_of_unreadable unread]
    exact iff_of_false (List.cons_ne_nil _ _) Bool.false_ne_true

/-- What an outcome reveals becomes known when the parse is over, and nothing else. -/
theorem roots_file_eq : (file parser files roots id overlay).2 =
    roots ++ roots.novel (file parser files roots id overlay).1.revealed := by
  rw [← SourceRoots.registerAll_eq]
  rcases finds_or_unreadable files id overlay with ⟨text, found⟩ | ⟨rfl, cause, unread⟩
  · rw [file_of_finds found]
  · rw [file_of_unreadable unread]
    rfl

/-- Whatever a parser does, whatever the disk holds and whatever roots are known, parsing a file
ends in an outcome that has no problems exactly if it is a success. With a text open in the editor
the disk makes no difference. Without one, a file that can be read is parsed as if its text were
open, and one that cannot be read has a single problem without a place, whatever the parser. If
there is a text, the parser is run on it and on the roots known before, and on nothing else: it
decides whether the outcome is a success, and its problems are kept, but a rejection without a
problem and a crash become a single problem without a place. A success makes the roots known that it
reveals and that are not known yet, in their order, and any other outcome leaves the roots as they
were. -/
theorem parse_contains_every_failure (parser : Parser α) (files : FileSystem) (roots : SourceRoots)
    (id : Identity) (overlay : Option String) :
    ((file parser files roots id overlay).1.problems = [] ↔
      (file parser files roots id overlay).1.isSuccess = true) ∧
    (∀ text disk, file parser disk roots id (some text) = file parser files roots id (some text)) ∧
    (∀ text, files.load id.path = .ok text →
      file parser files roots id none = file parser files roots id (some text)) ∧
    (∀ cause, files.load id.path = .error cause → ∃ message, ∀ other : Parser α,
      prepare files roots id none = .error (.failure [⟨none, message⟩] : Outcome α) ∧
      file other files roots id none = (.failure [⟨none, message⟩], roots)) ∧
    (∀ text, Finds files id overlay text →
      (prepare files roots id overlay : Except (Outcome α) Call) = .ok ⟨text, roots⟩ ∧
      (∀ other : Parser α, other id.path text roots = parser id.path text roots →
        file other files roots id overlay = file parser files roots id overlay) ∧
      (∀ tree hints, (file parser files roots id overlay).1 = .success tree hints ↔
        parser id.path text roots = .accepted tree hints) ∧
      (∀ problems, parser id.path text roots = .rejected problems → problems ≠ [] →
        (file parser files roots id overlay).1 = .failure problems) ∧
      (parser id.path text roots = .rejected [] ∨
          (∃ reason, parser id.path text roots = .crashed reason) →
        ∃ message, (file parser files roots id overlay).1 = .failure [⟨none, message⟩])) ∧
    (∀ tree hints, (file parser files roots id overlay).1 = .success tree hints →
      (file parser files roots id overlay).2 = roots ++ roots.novel hints) ∧
    ((file parser files roots id overlay).1.isSuccess = false →
      (file parser files roots id overlay).2 = roots) := by
  refine ⟨problems_file_eq_nil_iff, ?_, ?_, ?_, ?_, ?_, ?_⟩
  · intro text disk
    rw [file_of_finds (.inl rfl), file_of_finds (.inl rfl)]
  · intro text loaded
    rw [file_of_finds (.inr ⟨rfl, loaded⟩), file_of_finds (.inl rfl)]
  · -- The message is chosen before the parser is: it cannot depend on it.
    intro cause unread
    exact ⟨_, fun other => ⟨prepare_of_unreadable unread, file_of_unreadable unread⟩⟩
  · intro text found
    rw [file_of_finds found]
    refine ⟨prepare_of_finds found, ?_, ?_, ?_, ?_⟩
    · intro other same
      rw [file_of_finds found, same]
    · intro tree hints
      exact conclude_eq_success_iff
    · intro problems rejected some
      rw [rejected]
      obtain ⟨problem, more, rfl⟩ := List.exists_cons_of_ne_nil some
      rfl
    · rintro (rejected | ⟨reason, crashed⟩)
      · rw [rejected]
        exact ⟨_, rfl⟩
      · rw [crashed]
        exact ⟨_, rfl⟩
  · intro tree hints success
    rw [roots_file_eq, success]
    rfl
  · intro failed
    rw [roots_file_eq]
    rcases ended : (file parser files roots id overlay).1 with ⟨tree, hints⟩ | problems
    · rw [ended] at failed
      cases failed
    · exact List.append_nil roots

namespace Revealing

/-- A disk with a script that reveals a root in two spellings and one more. -/
def disk : FileSystem :=
  (FileSystem.empty [] List.all_nil).writeFile ⟨"/a.txt"⟩
    (.octets "ROOT /src\nROOT /lib\nROOT /src/".toUTF8)

/-- The script. -/
def script : Identity := ⟨⟨"/a.txt"⟩⟩

end Revealing

open Revealing in
/-- A script on the disk is parsed as if it were open. Of the roots that it reveals one is known and
one is spelled twice, so that one becomes known. A file that is not there makes none known. -/
theorem script_reveals_one_new_root :
    disk.load script.path = .ok "ROOT /src\nROOT /lib\nROOT /src/" ∧
    (file Script.parser disk [⟨"/lib/"⟩] script none).1.problems = [] ∧
    (file Script.parser disk [⟨"/lib/"⟩] script none).2 = [⟨"/lib/"⟩, ⟨"/src"⟩] ∧
    disk.load ⟨"/b.txt"⟩ = .error (.file .notFound) ∧
    (file Script.parser disk [⟨"/lib/"⟩] ⟨⟨"/b.txt"⟩⟩ none).1.problems ≠ [] ∧
    (file Script.parser disk [⟨"/lib/"⟩] ⟨⟨"/b.txt"⟩⟩ none).2 = [⟨"/lib/"⟩] := by
  have loaded : disk.load script.path = .ok "ROOT /src\nROOT /lib\nROOT /src/" := by
    decide +kernel
  have missing : disk.load ⟨"/b.txt"⟩ = .error (.file .notFound) := by decide +kernel
  obtain ⟨clean, -, -, -, run, known, -⟩ :=
    parse_contains_every_failure Script.parser disk [⟨"/lib/"⟩] script none
  obtain ⟨-, -, success, -, -⟩ := run _ (.inr ⟨rfl, loaded⟩)
  have accepted : Script.parser script.path "ROOT /src\nROOT /lib\nROOT /src/" [⟨"/lib/"⟩] =
      .accepted ⟨⟩ [⟨"/src"⟩, ⟨"/lib"⟩, ⟨"/src/"⟩] := by rfl
  have ended := (success _ _).2 accepted
  have new : SourceRoots.novel [⟨"/lib/"⟩] [⟨"/src"⟩, ⟨"/lib"⟩, ⟨"/src/"⟩] = [⟨"/src"⟩] := by
    decide +kernel
  obtain ⟨troubled, -, -, refused, -, -, -⟩ :=
    parse_contains_every_failure Script.parser disk [⟨"/lib/"⟩] ⟨⟨"/b.txt"⟩⟩ none
  obtain ⟨message, outcome⟩ := refused _ missing
  have unread := (outcome Script.parser).2
  refine ⟨loaded, clean.2 ?_, ?_, missing, ?_, ?_⟩
  · rw [ended]
    rfl
  · rw [known _ _ ended, new]
    rfl
  · rw [unread]
    exact List.cons_ne_nil _ _
  · rw [unread]

end DiagnosticServer.Parse
