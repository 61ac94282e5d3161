import DiagnosticServer.Proofs.Session.Calls
import DiagnosticServer.Proofs.Session.Reports

/-!
# Whose edits are heeded

A client opens and closes documents by URI, and the session keeps one document for each file. Where
several URIs name one file, a document that was opened by two of them is gone when it is closed by
one. A conversation is a session with the calls that were made in it, one after the other, while
tasks work, pulls are served and the disk changes in between. `Conversation.standing` shows what it
comes to: as long as a client has a URI open, the session remembers the file that it was opened for,
and the document of that file is open unless it was closed by another URI and not recorded again.
-/

namespace DiagnosticServer

variable {α : Type}

open Cache

/-! ## What the calls do to the open documents -/

/-- Closing a document forgets its text, whatever becomes of its entry. -/
theorem Cache.closeDocument_frame (cache : Cache α) (evicting : Bool) (id : Identity) :
    (cache.closeDocument evicting id).documents = cache.documents.erase id ∧
      (cache.closeDocument evicting id).accepting = cache.accepting := by
  have evicted (held : Cache α) :
      (held.evict id).documents = held.documents ∧ (held.evict id).accepting = held.accepting := by
    unfold evict
    split <;> exact ⟨rfl, rfl⟩
  unfold closeDocument
  split_ifs
  · exact evicted _
  · exact ⟨rfl, rfl⟩

namespace DocumentCall

variable {env : Environment α} {session : Session α} {call : DocumentCall}

/-- What a call does to the documents and the files that are remembered while parses may be started:
the session after it and the answer. -/
inductive Heard (env : Environment α) (session : Session α) (call : DocumentCall) :
    Session α → Except Error (Option Handle) → Prop where
  /-- It records the text that was sent. -/
  | recorded {known next : Session α} {id : Identity} {text : String} {handle : Handle}
      (identified : session.identity env.files call.uri = (known, .ok id))
      (given : call.text? = some text) (about : handle.id = id)
      (documents : next.cache.documents = session.cache.documents.insert id ⟨call.uri, text⟩)
      (identities : next.identities = known.identities)
      (accepting : next.cache.accepting = true) :
      Heard env session call next (.ok (some handle))
  /-- It closes the document and forgets the file. -/
  | closed {known next : Session α} {id : Identity} (same : call = .closed call.uri)
      (identified : session.identity env.files call.uri = (known, .ok id))
      (documents : next.cache.documents = session.cache.documents.erase id)
      (identities : next.identities = known.identities.erase call.uri)
      (accepting : next.cache.accepting = true) :
      Heard env session call next (.ok none)
  /-- It does neither, and forgets no file. -/
  | passed {next : Session α} {reply : Except Error (Option Handle)}
      (documents : next.cache.documents = session.cache.documents)
      (known : ∀ uri id, session.identities.get? uri = some id →
        next.identities.get? uri = some id)
      (silent : ∀ handle, reply = .ok (some handle) → call.text? = none)
      (nameless : call = .closed call.uri →
        ∀ id, (session.identity env.files call.uri).2 ≠ .ok id)
      (accepting : next.cache.accepting = true) :
      Heard env session call next reply

/-- A text that is recorded while parses may be started is recorded with an answer. -/
theorem Heard.of_update (accepting : session.cache.accepting = true) {known : Session α}
    {id : Identity} {text : String}
    (identified : session.identity env.files call.uri = (known, .ok id))
    (given : call.text? = some text) :
    Heard env session call (known.update id ⟨call.uri, text⟩).1
      (known.update id ⟨call.uri, text⟩).2 := by
  have same : known.cache = session.cache := (Session.identity_spec identified).1
  rw [← same] at accepting
  obtain ⟨documents, kept⟩ := known.cache.updateDocument_frame id ⟨call.uri, text⟩
  obtain ⟨handle, answered, about⟩ :=
    updateDocument_answered accepting id ⟨call.uri, text⟩
  have reply : (known.update id ⟨call.uri, text⟩).2 = .ok (some handle) := by
    simp only [Session.update, answered]
    rfl
  rw [reply]
  rw [same] at documents
  exact .recorded identified given about (by rw [← documents, Session.update, same]) rfl
    (kept.trans accepting)

/-- Every call is heard in one of these ways. -/
theorem heard_apply (accepting : session.cache.accepting = true) (env : Environment α)
    (call : DocumentCall) :
    Heard env session call (call.apply env session).1 (call.apply env session).2 := by
  rcases apply_cases env session call with
    ⟨foreign, passed⟩ | ⟨-, ⟨cause, identified, failed⟩ | ⟨known, id, identified, served⟩⟩
  · rw [passed]
    refine .passed rfl (fun _ _ known => known) nofun (fun same => ?_) accepting
    rw [same] at foreign
    cases foreign
  · rw [failed]
    refine .passed rfl (fun _ _ known => known) nofun (fun same id named => ?_) accepting
    rw [identified] at named
    cases named
  · rw [served]
    have same : known.cache = session.cache := (Session.identity_spec identified).1
    have still : known.cache.accepting = true := by rw [same, accepting]
    have recalled : ∀ uri id, session.identities.get? uri = some id →
        known.identities.get? uri = some id :=
      fun _ _ => Session.identities_of_identity identified
    have ignored (other : ∀ uri, call ≠ .closed uri) : Heard env session call known (.ok none) :=
      .passed (by rw [same]) recalled nofun (fun closed => absurd closed (other _)) still
    cases call with
    | opened uri language text => exact .of_update accepting identified rfl
    | changed uri text =>
      unfold serve
      split_ifs
      · exact .of_update accepting identified rfl
      · exact ignored nofun
    | saved uri text =>
      unfold serve
      split_ifs
      · cases text with
        | some text => exact .of_update accepting identified rfl
        | none =>
          obtain ⟨documents, kept⟩ := known.cache.requestParse_frame id
          rw [same] at documents
          exact .passed (by rw [← documents, same]) recalled (fun _ _ => rfl) nofun
            (kept.trans still)
      · exact ignored nofun
    | closed uri =>
      obtain ⟨documents, kept⟩ := known.cache.closeDocument_frame env.options.evictOnClose id
      rw [same] at documents
      exact .closed rfl identified (by rw [← documents, ← same]; rfl) rfl (kept.trans still)

namespace Heard

variable {next : Session α} {reply : Except Error (Option Handle)} {uri : Uri} {id : Identity}
  (heard : Heard env session call next reply)

include heard

/-- Parses may be started as before. -/
theorem still_accepting : next.cache.accepting = true := by
  cases heard with
  | recorded | closed | passed => assumption

/-- A text that was recorded is open, and its file is remembered. -/
theorem of_recorded {handle : Handle} (given : call.text? ≠ none)
    (answered : reply = .ok (some handle)) :
    next.cache.documents.get? handle.id ≠ none ∧
      next.identities.get? call.uri = some handle.id := by
  cases heard with
  | @recorded known _ file text _ identified _ about documents identities =>
    cases answered
    have own : known.identities.get? call.uri = some file :=
      (Session.identity_spec identified).2.2 file rfl
    rw [documents, identities, about, own, Table.get?_insert, if_pos rfl]
    exact ⟨nofun, rfl⟩
  | closed => cases answered
  | passed _ _ silent => exact absurd (silent handle answered) given

/-- A document that was closed is not open. -/
theorem of_closed (same : call = .closed uri)
    (found : (session.identity env.files uri).2 = .ok id) :
    next.cache.documents.get? id = none := by
  subst same
  cases heard with
  | recorded _ given => cases given
  | closed _ identified documents =>
    have own := identified
    rw [DocumentCall.uri] at own
    rw [own] at found
    cases found
    rw [documents, Table.get?_erase, if_pos rfl]
  | passed _ _ _ nameless => exact absurd found (nameless rfl id)

/-- The other documents stay as they are. -/
theorem of_neither
    (unrecorded : call.text? ≠ none → ∀ handle, reply = .ok (some handle) → handle.id ≠ id)
    (unclosed : call = .closed call.uri → (session.identity env.files call.uri).2 ≠ .ok id) :
    next.cache.documents.get? id = session.cache.documents.get? id := by
  cases heard with
  | @recorded known _ file text handle identified given about documents =>
    have other : id ≠ file := by
      rintro rfl
      exact unrecorded (by rw [given]; exact nofun) handle rfl about
    rw [documents, Table.get?_insert, if_neg other]
  | @closed known _ file same identified documents =>
    have other : id ≠ file := by
      rintro rfl
      exact unclosed same (by rw [identified])
    rw [documents, Table.get?_erase, if_neg other]
  | passed documents => rw [documents]

/-- A file is remembered until its document is closed by the same URI. -/
theorem of_known (known : session.identities.get? uri = some id) (unclosed : call ≠ .closed uri) :
    next.identities.get? uri = some id := by
  cases heard with
  | recorded identified _ _ _ identities =>
    rw [identities]
    exact Session.identities_of_identity identified known
  | closed same identified _ identities =>
    have other : uri ≠ call.uri := by
      rintro rfl
      exact unclosed same
    rw [identities, Table.get?_erase, if_neg other]
    exact Session.identities_of_identity identified known
  | passed _ recalled => exact recalled uri id known

end Heard

/-- Whether a call is an edit of the document that the client knows by that URI. -/
def Edits (uri : Uri) (call : DocumentCall) : Prop :=
  (∃ text, call = .changed uri text) ∨ ∃ text, call = .saved uri text

end DocumentCall

/-! ## Conversations -/

/-- A call with the session and the disk that it met. -/
structure Turn (α : Type) where
  /-- The session before the call. -/
  session : Session α
  /-- The files on the disk. -/
  files : FileSystem
  /-- The call. -/
  call : DocumentCall

namespace Turn

variable (env : Environment α) (turn : Turn α)

/-- The session after the call. -/
def after : Session α := (turn.call.apply (env.on turn.files) turn.session).1

/-- The answer. -/
def reply : Except Error (Option Handle) :=
  (turn.call.apply (env.on turn.files) turn.session).2

/-- Whether the document that the client knows by that URI was opened with success. -/
def Opens (uri : Uri) : Prop :=
  (∃ language text, turn.call = .opened uri language text) ∧
    ∃ handle, turn.reply env = .ok (some handle)

/-- Whether a text was recorded for that file. -/
def Records (id : Identity) : Prop :=
  turn.call.text? ≠ none ∧ ∃ handle, turn.reply env = .ok (some handle) ∧ handle.id = id

/-- Whether that file was closed by that URI. -/
def Closes (turn : Turn α) (uri : Uri) (id : Identity) : Prop :=
  turn.call = .closed uri ∧ (turn.session.identity turn.files uri).2 = .ok id

end Turn

/-- A conversation before the end of the work: the session that it has come to, the files on the
disk, and the calls that were made, latest first. -/
inductive Conversation (env : Environment α) :
    Session α → FileSystem → List (Turn α) → Prop where
  /-- A session was made. -/
  | start {session : Session α} (created : Session.create env = .ok session) (files : FileSystem) :
      Conversation env session files []
  /-- A call was made. -/
  | called {session : Session α} {files : FileSystem} {turns : List (Turn α)}
      (talk : Conversation env session files turns) (call : DocumentCall) :
      Conversation env (Turn.after env ⟨session, files, call⟩) files
        (⟨session, files, call⟩ :: turns)
  /-- The file that a URI names was found for a pull. -/
  | named {session : Session α} {files : FileSystem} {turns : List (Turn α)}
      (talk : Conversation env session files turns) (uri : Uri) :
      Conversation env (session.identity files uri).1 files turns
  /-- A task took a step, a file was asked for or looked up, or the disk has changed. -/
  | worked {session : Session α} {files : FileSystem} {turns : List (Turn α)} {action : Action}
      {next : World α} (talk : Conversation env session files turns)
      (plain : action.begins = false)
      (taken : World.step env ⟨session.cache, files, []⟩ action = some next) :
      Conversation env { session with cache := next.cache } next.files turns

/-- Whether the client has opened a document by that URI and not closed it by that URI since. -/
def HasOpen (env : Environment α) (uri : Uri) (turns : List (Turn α)) : Prop :=
  ∃ later opening earlier, turns = later ++ opening :: earlier ∧ opening.Opens env uri ∧
    ∀ turn ∈ later, turn.call ≠ .closed uri

/-- Whether that file was closed by another URI and no text was recorded for it since. -/
def ClosedElsewhere (env : Environment α) (uri : Uri) (id : Identity) (turns : List (Turn α)) :
    Prop :=
  ∃ later closing earlier other, turns = later ++ closing :: earlier ∧ other ≠ uri ∧
    closing.Closes other id ∧ ∀ turn ∈ later, ¬ turn.Records env id

section

variable {env : Environment α} {session : Session α} {files : FileSystem} {turns : List (Turn α)}
  {turn : Turn α} {uri : Uri} {id : Identity}

/-- A document is held open since the latest call, or it was before and was not closed. -/
theorem HasOpen.cases (held : HasOpen env uri (turn :: turns)) :
    turn.Opens env uri ∨ turn.call ≠ .closed uri ∧ HasOpen env uri turns := by
  obtain ⟨later, opening, earlier, whole, opens, unclosed⟩ := held
  cases later with
  | nil =>
    cases whole
    exact .inl opens
  | cons last rest =>
    cases whole
    exact .inr ⟨unclosed turn List.mem_cons_self, rest, opening, earlier, rfl, opens,
      fun other member => unclosed other (List.mem_cons_of_mem _ member)⟩

/-- A file was closed elsewhere by the latest call, or it was before and no text was recorded for it
now. -/
theorem closedElsewhere_cons : ClosedElsewhere env uri id (turn :: turns) ↔
    (∃ other, other ≠ uri ∧ turn.Closes other id) ∨
      ¬ turn.Records env id ∧ ClosedElsewhere env uri id turns := by
  constructor
  · rintro ⟨later, closing, earlier, other, whole, ne, closes, unrecorded⟩
    cases later with
    | nil =>
      cases whole
      exact .inl ⟨other, ne, closes⟩
    | cons last rest =>
      cases whole
      exact .inr ⟨unrecorded turn List.mem_cons_self, rest, closing, earlier, other, rfl, ne,
        closes, fun other member => unrecorded other (List.mem_cons_of_mem _ member)⟩
  · rintro (⟨other, ne, closes⟩ | ⟨silent, later, closing, earlier, other, rfl, ne, closes, kept⟩)
    · exact ⟨[], turn, turns, other, rfl, ne, closes, nofun⟩
    · refine ⟨turn :: later, closing, earlier, other, rfl, ne, closes, fun next member => ?_⟩
      rcases List.mem_cons.mp member with rfl | member
      · exact silent
      · exact kept next member

/-- Tasks, requests and the disk leave the open documents and whether parses may be started. -/
theorem World.frame_of_plain {world next : World α} {action : Action} (idle : world.calls = [])
    (accepting : world.cache.accepting = true) (plain : action.begins = false)
    (taken : world.step env action = some next) :
    next.cache.documents = world.cache.documents ∧ next.cache.accepting = true := by
  cases action with
  | update | close | shutdown => cases plain
  | edit files =>
    cases taken
    exact ⟨rfl, accepting⟩
  | request id =>
    obtain ⟨documents, kept⟩ := world.cache.requestParse_frame id
    cases taken
    exact ⟨documents, kept.trans accepting⟩
  | look id =>
    cases taken
    rcases lookup_of_accepting accepting id with same | ⟨-, scheduled⟩
    · rw [same]
      exact ⟨rfl, accepting⟩
    · rw [scheduled]
      exact ⟨rfl, accepting⟩
  | proceed call =>
    rw [step, idle, if_neg List.not_mem_nil] at taken
    cases taken
  | sweep left id =>
    rw [step, idle, if_neg fun begun => List.not_mem_nil begun.1] at taken
    cases taken
  | move revision move =>
    rcases step_cases taken with ⟨task, -, moved, -, -, stepped⟩ | ⟨other, -⟩
    · obtain ⟨documents, kept, -⟩ := stepped.frame
      exact ⟨documents, kept.trans accepting⟩
    · exact absurd rfl (other revision move)

namespace Conversation

/-- While a conversation goes on, parses may be started. -/
theorem accepting (talk : Conversation env session files turns) :
    session.cache.accepting = true := by
  induction talk with
  | start created files =>
    unfold Session.create at created
    split_ifs at created
    cases created
    rfl
  | called talk call ih => exact (DocumentCall.heard_apply ih _ _).still_accepting
  | named talk uri ih =>
    rw [Session.cache_of_identity]
    exact ih
  | worked talk plain taken ih => exact (World.frame_of_plain rfl ih plain taken).2

/-- As long as a client has a document open by a URI, its file is remembered, and the document is
open unless it was closed by another URI and no text was recorded for it since. -/
theorem standing (talk : Conversation env session files turns) (held : HasOpen env uri turns) :
    ∃ id, session.identities.get? uri = some id ∧
      (session.cache.documents.get? id = none ↔ ClosedElsewhere env uri id turns) := by
  induction talk with
  | start =>
    obtain ⟨later, opening, earlier, whole, -⟩ := held
    cases later <;> cases whole
  | named talk other ih =>
    obtain ⟨id, known, closed⟩ := ih held
    refine ⟨id, Session.identities_of_identity rfl known, ?_⟩
    rw [Session.cache_of_identity]
    exact closed
  | worked talk plain taken ih =>
    obtain ⟨id, known, closed⟩ := ih held
    refine ⟨id, known, ?_⟩
    rw [(World.frame_of_plain rfl talk.accepting plain taken).1]
    exact closed
  | @called session files turns talk call ih =>
    have heard := DocumentCall.heard_apply talk.accepting (env.on files) call
    rcases held.cases with ⟨⟨language, text, rfl⟩, handle, answered⟩ | ⟨unclosed, before⟩
    · -- The document was opened just now, for the file of the handle.
      obtain ⟨opened, known⟩ := heard.of_recorded nofun answered
      refine ⟨handle.id, known, iff_of_false opened fun elsewhere => ?_⟩
      rcases closedElsewhere_cons.mp elsewhere with ⟨other, -, closes, -⟩ | ⟨silent, -⟩
      · cases closes
      · exact silent ⟨nofun, handle, answered, rfl⟩
    · obtain ⟨id, known, closed⟩ := ih before
      refine ⟨id, heard.of_known known unclosed, ?_⟩
      rw [closedElsewhere_cons]
      by_cases records : Turn.Records env ⟨session, files, call⟩ id
      · -- Its text was recorded, by whichever URI.
        obtain ⟨given, handle, answered, rfl⟩ := records
        refine iff_of_false (heard.of_recorded given answered).1 ?_
        rintro (⟨other, -, closes, -⟩ | ⟨silent, -⟩)
        · rw [show call = .closed other from closes] at given
          exact given rfl
        · exact silent ⟨given, handle, answered, rfl⟩
      · by_cases closes : ∃ other, Turn.Closes ⟨session, files, call⟩ other id
        · -- It was closed, and not by the URI that the client has open.
          obtain ⟨other, same, found⟩ := closes
          have ne : other ≠ uri := by
            rintro rfl
            exact unclosed same
          exact iff_of_true (heard.of_closed same found) (.inl ⟨other, ne, same, found⟩)
        · have kept := heard.of_neither
            (fun given handle answered about => records ⟨given, handle, answered, about⟩)
            (fun same found => closes ⟨_, same, found⟩)
          rw [Turn.after, kept, closed]
          constructor
          · exact fun elsewhere => .inr ⟨records, elsewhere⟩
          · rintro (⟨other, -, closed⟩ | ⟨-, elsewhere⟩)
            · exact absurd ⟨other, closed⟩ closes
            · exact elsewhere

end Conversation

/-! ## Edits -/

/-- An edit of a document that is not open is passed over. -/
theorem DocumentCall.Edits.ignored {call : DocumentCall} (edits : call.Edits uri)
    (known : session.identities.get? uri = some id)
    (closed : session.cache.documents.get? id = none) :
    call.apply env session = (session, .ok none) := by
  have shut : ¬ session.cache.isOpen id = true := by
    rw [isOpen, Table.contains, closed]
    exact Bool.false_ne_true
  rcases edits with ⟨text, rfl⟩ | ⟨text, rfl⟩ <;> rw [apply_of_known rfl known] <;>
    exact if_neg shut

/-- An edit of a document that is open is answered with a handle, and the text is recorded if one
was sent. -/
theorem DocumentCall.Edits.applied {call : DocumentCall} (edits : call.Edits uri)
    (env : Environment α) (accepting : session.cache.accepting = true)
    (known : session.identities.get? uri = some id)
    (opened : session.cache.documents.get? id ≠ none) :
    ∃ handle, (call.apply env session).2 = .ok (some handle) ∧ handle.id = id ∧
      (call.apply env session).1.cache.documents.get? id =
        (call.text?.map (Document.mk uri) <|> session.cache.documents.get? id) := by
  have present : session.cache.isOpen id = true := Option.isSome_iff_ne_none.mpr opened
  have updated (text : String) : ∃ handle, (session.update id ⟨uri, text⟩).2 = .ok (some handle) ∧
      handle.id = id ∧
      (session.update id ⟨uri, text⟩).1.cache.documents.get? id = some ⟨uri, text⟩ := by
    obtain ⟨handle, answered, about⟩ := updateDocument_answered accepting id ⟨uri, text⟩
    refine ⟨handle, ?_, about, ?_⟩
    · simp only [Session.update, answered]
      rfl
    · have documents := (session.cache.updateDocument_frame id ⟨uri, text⟩).1
      simp only [Session.update, documents, Table.get?_insert, if_pos]
  have served : call.apply env session = call.serve env session id := by
    rcases edits with ⟨text, rfl⟩ | ⟨text, rfl⟩ <;> exact apply_of_known rfl known
  rw [served]
  rcases edits with ⟨text, rfl⟩ | ⟨text, rfl⟩
  · rw [serve_of_text rfl present]
    exact updated text
  · cases text with
    | some text =>
      rw [serve_of_text rfl present]
      exact updated text
    | none =>
      obtain ⟨handle, answered, about⟩ := requestParse_answered accepting id
      have documents := (session.cache.requestParse_frame id).1
      rw [serve, if_pos present]
      refine ⟨handle, ?_, about, ?_⟩
      · simp only [answered]
        rfl
      · simp only [documents]
        rfl

/-- In every conversation before the end of the work, over any disks and URIs, however many of them
name one file: as long as a client has a document open by a URI, its edits by that URI are passed
over if and only if the document was closed by another URI of the file and no text was recorded for
the file since, and then they change nothing. Otherwise they are answered with a handle for the
file, and the text that was sent is recorded under that URI. -/
theorem edits_ignored_iff_closed_elsewhere (talk : Conversation env session files turns)
    (held : HasOpen env uri turns) :
    ∃ id, session.identities.get? uri = some id ∧ ∀ call : DocumentCall, call.Edits uri →
      ((call.apply (env.on files) session).2 = .ok none ↔ ClosedElsewhere env uri id turns) ∧
      (ClosedElsewhere env uri id turns → (call.apply (env.on files) session).1 = session) ∧
      (¬ ClosedElsewhere env uri id turns →
        ∃ handle, (call.apply (env.on files) session).2 = .ok (some handle) ∧ handle.id = id ∧
          (call.apply (env.on files) session).1.cache.documents.get? id =
            (call.text?.map (Document.mk uri) <|> session.cache.documents.get? id)) := by
  obtain ⟨id, known, closed⟩ := talk.standing held
  refine ⟨id, known, fun call edits => ?_⟩
  have ignored (elsewhere : ClosedElsewhere env uri id turns) :
      call.apply (env.on files) session = (session, .ok none) :=
    edits.ignored known (closed.mpr elsewhere)
  have applied (here : ¬ ClosedElsewhere env uri id turns) :=
    edits.applied (env.on files) talk.accepting known (mt closed.mp here)
  refine ⟨⟨fun passed => ?_, fun elsewhere => by rw [ignored elsewhere]⟩,
    fun elsewhere => by rw [ignored elsewhere], applied⟩
  by_contra here
  obtain ⟨handle, answered, -⟩ := applied here
  cases passed.symm.trans answered

end

namespace Trial

/-- A session at its start. -/
def novice : Session Unit := ⟨Cache.empty, Table.empty⟩

/-- The document is opened by its URI. -/
def opening : Turn Unit := ⟨novice, (env 1).files, .opened address "java" "sound"⟩

/-- It is opened by its other URI too. -/
def doubling : Turn Unit := ⟨opening.after (env 1), (env 1).files, .opened detour "java" "sound"⟩

/-- It is closed by its other URI. -/
def halving : Turn Unit := ⟨doubling.after (env 1), (env 1).files, .closed detour⟩

/-- It is opened by its other URI again. -/
def redoubling : Turn Unit :=
  ⟨halving.after (env 1), (env 1).files, .opened detour "java" "unsound"⟩

/-- The conversation up to the close. -/
theorem halved : Conversation (env 1) (halving.after (env 1)) (env 1).files
    [halving, doubling, opening] :=
  (((Conversation.start rfl _).called _).called _).called _

/-- The first URI was opened with success. -/
theorem opening_opens : opening.Opens (env 1) address :=
  ⟨⟨_, _, rfl⟩, ⟨file, 1, false⟩, by decide +kernel⟩

end Trial

open Trial in
/-- A document is opened by two URIs, closed by one of them and opened by it again. Edits by the
other URI are applied. -/
theorem edits_applied_after_reopening : ∃ session turns,
    Conversation (env 1) session (env 1).files turns ∧ HasOpen (env 1) address turns ∧
    ¬ ClosedElsewhere (env 1) address file turns ∧
    ∀ text, ∃ handle,
      ((DocumentCall.changed address text).apply ((env 1).on (env 1).files) session).2 =
        .ok (some handle) ∧ handle.id = file ∧
      ((DocumentCall.changed address text).apply ((env 1).on (env 1).files)
        session).1.cache.documents.get? file = some ⟨address, text⟩ := by
  have talk : Conversation (env 1) (redoubling.after (env 1)) (env 1).files
      [redoubling, halving, doubling, opening] := halved.called _
  have held : HasOpen (env 1) address [redoubling, halving, doubling, opening] :=
    ⟨[redoubling, halving, doubling], opening, [], rfl, opening_opens, by decide⟩
  have named : (redoubling.after (env 1)).identities.get? address = some file := by
    decide +kernel
  have heeded : ((DocumentCall.saved address none).apply ((env 1).on (env 1).files)
      (redoubling.after (env 1))).2 ≠ .ok none := by
    decide +kernel
  obtain ⟨id, known, edits⟩ := edits_ignored_iff_closed_elsewhere talk held
  obtain rfl : file = id := Option.some.inj (named.symm.trans known)
  have here : ¬ ClosedElsewhere (env 1) address file [redoubling, halving, doubling, opening] :=
    mt (edits (.saved address none) (.inr ⟨none, rfl⟩)).1.mpr heeded
  exact ⟨_, _, talk, held, here, fun text => (edits _ (.inl ⟨text, rfl⟩)).2.2 here⟩

open Trial in
/-- A document is opened by two URIs and closed by one of them. The client has it open by the other
one, but all its edits are passed over. -/
theorem edits_ignored_after_closing_detour : ∃ session turns,
    Conversation (env 1) session (env 1).files turns ∧ HasOpen (env 1) address turns ∧
    ∀ call : DocumentCall, call.Edits address →
      call.apply (env 1) session = (session, .ok none) := by
  have held : HasOpen (env 1) address [halving, doubling, opening] :=
    ⟨[halving, doubling], opening, [], rfl, opening_opens, by decide⟩
  have named : (halving.after (env 1)).identities.get? address = some file := by decide +kernel
  have closed : (halving.after (env 1)).cache.documents.get? file = none := by decide +kernel
  exact ⟨_, _, halved, held, fun call edits => edits.ignored named closed⟩

end DiagnosticServer
