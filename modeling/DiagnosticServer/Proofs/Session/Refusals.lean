import DiagnosticServer.Proofs.Session.Calls
import DiagnosticServer.Proofs.Session.Reports

/-!
# What a failed call leaves behind

A call fails if its URI names no file, or if it needs a parse and none can be started any more. It
touches nothing but the open documents and the files that URIs were found to name. In the second
case a call that has sent a text has recorded it before it fails (`DocumentCall.Leaves`), and the
text that is recorded is what the next call with the same text is compared with. So a call that
failed because of the end of the work fails again if it is repeated, unless an outcome is held for
its file: that outcome then passes for one of the new text. Pulls record nothing, and a pull that
fails goes on to fail.
-/

namespace DiagnosticServer

variable {α : Type}

open Cache

namespace Cache

variable {cache : Cache α} {id : Identity} {document : Document}

/-- A text that was just recorded is open, and is the same as before. -/
theorem recordDocument_twice (cache : Cache α) (id : Identity) (document : Document) :
    (cache.recordDocument id document).1.isOpen id = true ∧
      ((cache.recordDocument id document).1.recordDocument id document).2 = true := by
  have found : (cache.recordDocument id document).1.documents.get? id = some document := by
    rw [get?_recordDocument, if_pos rfl]
  constructor
  · rw [isOpen, Table.contains, found]
    rfl
  · simp only [recordDocument] at found ⊢
    rw [found]
    exact beq_self_eq_true document.text

/-- A text that is recorded a second time makes do with the outcome at hand. -/
theorem updateDocument_of_cached {snapshot : Snapshot α}
    (held : cache.cached? id = some snapshot) :
    ((cache.recordDocument id document).1.updateDocument id document).2 =
      .ok ⟨id, snapshot.revision, true⟩ := by
  have updates := (cache.recordDocument id document).1.updates_updateDocument id document
  have same : (cache.recordDocument id document).1.cached? id = some snapshot := held
  generalize (cache.recordDocument id document).1.updateDocument id document = result at updates ⊢
  cases updates with
  | told _ entry => cases entry.symm.trans (cached?_eq_some.mp same)
  | good found =>
    cases found.symm.trans same
    rfl
  | wanting _ stale =>
    rcases stale with nothing | changed
    · cases nothing.symm.trans same
    · cases changed.symm.trans (cache.recordDocument_twice id document).2

/-- With nothing at hand there is nothing to do for a text once the work has ended. -/
theorem updateDocument_of_ended (ended : cache.accepting = false)
    (free : ∀ revision dirty closed,
      cache.entries.get? id ≠ some (.pending revision dirty closed))
    (nothing : cache.cached? id = none) (document : Document) :
    (cache.updateDocument id document).2 = .error .schedulerShutdown := by
  have updates := cache.updates_updateDocument id document
  generalize cache.updateDocument id document = result at updates ⊢
  cases updates with
  | told _ entry => exact absurd entry (free _ _ _)
  | good found => cases found.symm.trans nothing
  | wanting =>
    have still : (cache.recordDocument id document).1.accepting = false := ended
    rw [start, still]
    rfl

/-- Nor is there for a request. -/
theorem requestParse_of_ended (ended : cache.accepting = false)
    (free : ∀ revision dirty closed,
      cache.entries.get? id ≠ some (.pending revision dirty closed)) :
    cache.requestParse id = (cache, .error .schedulerShutdown) := by
  unfold requestParse
  split
  · exact absurd ‹_› (free _ _ _)
  · rw [start, ended]
    rfl

end Cache

namespace DocumentCall

variable {env : Environment α} {session next : Session α} {call : DocumentCall} {cause : Error}

/-- Whether a call that failed for that cause and came to the session `next` has recorded that
document for that file. -/
def Leaves (call : DocumentCall) (next : Session α) (cause : Error) (id : Identity)
    (document : Document) : Prop :=
  cause = .schedulerShutdown ∧ next.identities.get? call.uri = some id ∧
    call.text? = some document.text ∧ document.uri = call.uri

/-- The ways in which a call can fail: the session that it comes to and the cause. -/
inductive Fails (env : Environment α) (session : Session α) (call : DocumentCall) :
    Session α → Error → Prop where
  /-- Its URI names no file. -/
  | nameless {cause : Error}
      (identified : session.identity env.files call.uri = (session, .error cause)) :
      Fails env session call session cause
  /-- It asks for a parse of an open document and has sent no text. -/
  | refused {known : Session α} {id : Identity}
      (identified : session.identity env.files call.uri = (known, .ok id))
      (silent : call = .saved call.uri none) (opened : session.cache.isOpen id = true)
      (ended : session.cache.accepting = false)
      (free : ∀ revision dirty closed,
        session.cache.entries.get? id ≠ some (.pending revision dirty closed)) :
      Fails env session call known .schedulerShutdown
  /-- It has sent a text for which there is nothing at hand. -/
  | recorded {known : Session α} {id : Identity} {text : String}
      (identified : session.identity env.files call.uri = (known, .ok id))
      (given : call.text? = some text) (ended : session.cache.accepting = false)
      (free : ∀ revision dirty closed,
        session.cache.entries.get? id ≠ some (.pending revision dirty closed))
      (stale : session.cache.cached? id = none ∨
        (session.cache.recordDocument id ⟨call.uri, text⟩).2 = false) :
      Fails env session call
        { known with cache := (session.cache.recordDocument id ⟨call.uri, text⟩).1 }
        .schedulerShutdown

/-- A failure to record a text comes from the end of the work. -/
theorem Fails.of_update {known : Session α} {id : Identity} {text : String}
    (identified : session.identity env.files call.uri = (known, .ok id))
    (given : call.text? = some text)
    (failed : known.update id ⟨call.uri, text⟩ = (next, .error cause)) :
    Fails env session call next cause := by
  have same : known.cache = session.cache := (Session.identity_spec identified).1
  simp only [Session.update, same] at failed
  have updates := session.cache.updates_updateDocument id ⟨call.uri, text⟩
  generalize session.cache.updateDocument id ⟨call.uri, text⟩ = result at updates failed
  cases updates with
  | told | good => cases failed
  | wanting free stale =>
    unfold start at failed
    split_ifs at failed with accepting <;> cases failed
    have ended : session.cache.accepting = false := Bool.eq_false_iff.mpr accepting
    exact .recorded identified given ended free stale

/-- Every failure is one of these. -/
theorem fails_of_apply (failed : call.apply env session = (next, .error cause)) :
    Fails env session call next cause := by
  rcases apply_cases env session call with
    ⟨-, passed⟩ | ⟨-, ⟨other, identified, same⟩ | ⟨known, id, identified, served⟩⟩
  · cases passed.symm.trans failed
  · cases same.symm.trans failed
    exact .nameless identified
  · rw [served] at failed
    have same : known.cache = session.cache := (Session.identity_spec identified).1
    cases call with
    | opened uri language text => exact .of_update identified rfl failed
    | changed uri text =>
      unfold serve at failed
      split_ifs at failed
      · exact .of_update identified rfl failed
      · cases failed
    | saved uri text =>
      unfold serve at failed
      split_ifs at failed with opened
      · cases text with
        | some text => exact .of_update identified rfl failed
        | none =>
          -- No text was sent, so only the request for a parse can fail.
          simp only [requestParse, start, same] at failed opened
          split at failed
          · cases failed
          · rename_i free
            split_ifs at failed with accepting <;> cases failed
            have ended : session.cache.accepting = false := Bool.eq_false_iff.mpr accepting
            rw [← same]
            exact .refused identified rfl opened ended free
      · cases failed
    | closed uri => cases failed

/-- A call that fails is not passed over, whatever is on the disk. -/
theorem heeded_of_apply (failed : call.apply env session = (next, .error cause))
    (files : FileSystem) : call.isForeign (env.on files) = false := by
  have same : call.isForeign (env.on files) = call.isForeign env := by cases call <;> rfl
  rw [same]
  rcases apply_cases env session call with ⟨-, passed⟩ | ⟨heeded, -⟩
  · cases passed.symm.trans failed
  · exact heeded

namespace Fails

variable (fails : Fails env session call next cause)

include fails

/-- There are two causes. -/
theorem cause_eq : cause = .schedulerShutdown ∨ cause = .invalidUri call.uri.text := by
  cases fails with
  | nameless identified => exact .inr (Session.identity_error identified).2.1
  | refused | recorded => exact .inl rfl

/-- Of the cache only the open documents can have changed. -/
theorem cache_eq : next.cache = { session.cache with documents := next.cache.documents } := by
  cases fails with
  | nameless | recorded => rfl
  | refused identified => rw [(Session.identity_spec identified).1]

/-- No file is forgotten that was remembered. -/
theorem known {uri : Uri} {id : Identity} (known : session.identities.get? uri = some id) :
    next.identities.get? uri = some id := by
  cases fails with
  | nameless => exact known
  | refused identified | recorded identified =>
    exact Session.identities_of_identity identified known

/-- What a call leaves it has recorded, when no parse could be started and nothing was at hand for
the text. -/
theorem of_leaves {id : Identity} {document : Document}
    (leaves : call.Leaves next cause id document) :
    next.cache = (session.cache.recordDocument id document).1 ∧
      session.cache.accepting = false ∧
      (∀ revision dirty closed,
        session.cache.entries.get? id ≠ some (.pending revision dirty closed)) ∧
      (session.cache.cached? id = none ∨ (session.cache.recordDocument id document).2 = false) := by
  obtain ⟨rfl, named, text, address⟩ := leaves
  cases fails with
  | nameless identified => cases (Session.identity_error identified).2.1
  | refused identified silent =>
    rw [silent] at text
    cases text
  | @recorded known file sent identified given ended free stale =>
    have own := (Session.identity_spec identified).2.2 file rfl
    obtain rfl : id = file := Option.some.inj (named.symm.trans own)
    obtain rfl : document.text = sent := Option.some.inj (text.symm.trans given)
    rw [← address] at stale ⊢
    exact ⟨rfl, ended, free, stale⟩

/-- It is open then. -/
theorem left {id : Identity} {document : Document} (leaves : call.Leaves next cause id document) :
    next.cache.documents.get? id = some document := by
  rw [(fails.of_leaves leaves).1, get?_recordDocument, if_pos rfl]

/-- The other documents stay as they are. -/
theorem kept {id : Identity} (silent : ∀ document, ¬ call.Leaves next cause id document) :
    next.cache.documents.get? id = session.cache.documents.get? id := by
  cases fails with
  | nameless => rfl
  | refused identified => rw [(Session.identity_spec identified).1]
  | @recorded known file sent identified given =>
    have own := (Session.identity_spec identified).2.2 file rfl
    rw [get?_recordDocument, if_neg]
    rintro rfl
    exact silent ⟨call.uri, sent⟩ ⟨rfl, own, given, rfl⟩

/-- Every document stays as it is or is the one that was recorded. -/
theorem kept_or_left (id : Identity) :
    next.cache.documents.get? id = session.cache.documents.get? id ∨
      ∃ document, call.Leaves next cause id document ∧
        next.cache.documents.get? id = some document := by
  by_cases recorded : ∃ document, call.Leaves next cause id document
  · obtain ⟨document, leaves⟩ := recorded
    exact .inr ⟨document, leaves, fails.left leaves⟩
  · exact .inl (fails.kept fun document leaves => recorded ⟨document, leaves⟩)

/-- All of them stay as they are if what was recorded had been there before. -/
theorem documents_iff :
    (∀ id, next.cache.documents.get? id = session.cache.documents.get? id) ↔
      ∀ id document, call.Leaves next cause id document →
        session.cache.documents.get? id = some document := by
  constructor
  · intro same id document leaves
    rw [← fails.left leaves]
    exact (same id).symm
  · intro recorded id
    rcases fails.kept_or_left id with same | ⟨document, leaves, left⟩
    · exact same
    · rw [left, recorded id document leaves]

/-- With an outcome at hand, the text was another one before. -/
theorem text_ne {id : Identity} {document previous : Document}
    (leaves : call.Leaves next cause id document) {snapshot : Snapshot α}
    (held : session.cache.cached? id = some snapshot)
    (opened : session.cache.documents.get? id = some previous) :
    previous.text ≠ document.text := by
  intro same
  -- Otherwise the outcome would have been good for the text, and the call would not have failed.
  rcases (fails.of_leaves leaves).2.2.2 with nothing | changed
  · cases nothing.symm.trans held
  · simp only [recordDocument, opened, Option.any_some, same, beq_self_eq_true] at changed
    cases changed

/-- A call that has recorded a text records it once more when it is made again. -/
theorem apply_again {id : Identity} {document : Document} {files : FileSystem}
    (heeded : call.isForeign (env.on files) = false)
    (leaves : call.Leaves next cause id document) :
    (call.apply (env.on files) next).2 =
      ((session.cache.recordDocument id document).1.updateDocument id document).2.map some := by
  have recorded := (fails.of_leaves leaves).1
  obtain ⟨-, named, text, address⟩ := leaves
  have opened : next.cache.isOpen id = true := by
    rw [recorded]
    exact (session.cache.recordDocument_twice id document).1
  have same : (⟨call.uri, document.text⟩ : Document) = document := by rw [← address]
  rw [apply_of_known heeded named, serve_of_text text opened, same, ← recorded]
  rfl

/-- With an outcome at hand it is answered that outcome. -/
theorem answered_again {id : Identity} {document : Document} {files : FileSystem}
    (heeded : call.isForeign (env.on files) = false)
    (leaves : call.Leaves next cause id document) {snapshot : Snapshot α}
    (held : session.cache.cached? id = some snapshot) :
    (call.apply (env.on files) next).2 = .ok (some ⟨id, snapshot.revision, true⟩) := by
  rw [fails.apply_again heeded leaves, updateDocument_of_cached held]
  rfl

/-- Otherwise it fails again for the same cause. -/
theorem again {files : FileSystem} (heeded : call.isForeign (env.on files) = false)
    (nothing : ∀ id document, call.Leaves next cause id document →
      session.cache.cached? id = none) :
    (call.apply (env.on files) next).2 = .error cause := by
  have failed := fails
  cases fails with
  | nameless identified =>
    rw [apply_eq, heeded, if_neg Bool.false_ne_true, Session.withIdentity]
    have nameless : session.identity (env.on files).files call.uri = (session, .error cause) :=
      (Session.identity_error identified).2.2 files
    rw [nameless]
  | @refused _ id identified silent opened ended free =>
    obtain ⟨same, -, named⟩ := Session.identity_spec identified
    rw [← same] at opened ended free
    rw [apply_of_known heeded (named id rfl), silent, serve, if_pos opened]
    simp only [requestParse_of_ended ended free]
    rfl
  | @recorded known id text identified given ended free =>
    have leaves : call.Leaves _ .schedulerShutdown id ⟨call.uri, text⟩ :=
      ⟨rfl, (Session.identity_spec identified).2.2 id rfl, given, rfl⟩
    have still : (session.cache.recordDocument id ⟨call.uri, text⟩).1.accepting = false := ended
    rw [failed.apply_again heeded leaves, updateDocument_of_ended still free (nothing id _ leaves)]
    rfl

end Fails

end DocumentCall

/-! ## Pulls -/

namespace Engine

variable {env : Environment α} {engine next : Engine α} {id : Identity} {cause : Error}

/-- Finds the file that a URI names and asks for its outcome, of which a report is made. A pull that
cannot be answered at once waits as the query of that number. -/
def pull (env : Environment α) (engine : Engine α) (number : Nat) (uri : Uri)
    (previous : Option String) : Engine α × Option (Except Error Report) :=
  match engine.session.identity env.files uri with
  | (session, .ok id) =>
    let (engine, result) := { engine with session := session }.ask number id
    (engine, result.map fun result => result.map fun snapshot =>
      .ofOutcome env.options.diagnosticSource snapshot.revision snapshot.outcome previous)
  | (session, .error cause) => ({ engine with session := session }, some (.error cause))

/-- A query is refused where nothing is held for its file and no parse can be started, and that
changes nothing. -/
theorem consult_refused_iff : engine.consult id = (next, .done (.error cause)) ↔
    next = engine ∧ cause = .schedulerShutdown ∧ engine.cache.accepting = false ∧
      engine.cache.entries.get? id = none := by
  constructor
  · intro consulted
    unfold consult lookup at consulted
    cases entry : engine.cache.entries.get? id with
    | none =>
      simp only [entry, start] at consulted
      split_ifs at consulted with accepting
      · cases consulted
      · cases consulted
        exact ⟨rfl, rfl, Bool.eq_false_iff.mpr accepting, rfl⟩
    | some held =>
      cases held with
      | pending | ready =>
        simp only [entry] at consulted
        cases consulted
  · rintro ⟨rfl, rfl, ended, entry⟩
    simp only [consult, lookup, entry, start, ended]
    rfl

/-- The same holds of the query of a pull. -/
theorem ask_refused_iff {number : Nat} :
    engine.ask number id = (next, some (.error cause)) ↔
      next = engine ∧ cause = .schedulerShutdown ∧ engine.cache.accepting = false ∧
        engine.cache.entries.get? id = none := by
  rw [← consult_refused_iff, ask]
  constructor
  · intro asked
    split at asked
    · rename_i consulted
      cases asked
      exact consulted
    · cases asked
  · intro consulted
    rw [consulted]

/-- A pull that fails leaves the cache and the queries that wait as they are. -/
theorem pull_failed {number : Nat} {uri : Uri} {previous : Option String}
    (pulled : engine.pull env number uri previous = (next, some (.error cause))) :
    (cause = .schedulerShutdown ∨ cause = .invalidUri uri.text) ∧ next.cache = engine.cache ∧
      next.queries = engine.queries ∧
      ∀ other id, engine.session.identities.get? other = some id →
        next.session.identities.get? other = some id := by
  unfold pull at pulled
  split at pulled
  · rename_i session id identified
    obtain ⟨same, -, -⟩ := Session.identity_spec identified
    generalize asked : { engine with session := session }.ask number id = result at pulled
    obtain ⟨after, _ | _ | snapshot⟩ := result <;> cases pulled
    obtain ⟨rfl, rfl, -, -⟩ := ask_refused_iff.mp asked
    exact ⟨.inl rfl, same, rfl, fun _ _ => Session.identities_of_identity identified⟩
  · rename_i session other identified
    obtain ⟨rfl, named, -⟩ := Session.identity_error identified
    cases pulled
    exact ⟨.inr named, rfl, rfl, fun _ _ known => known⟩

/-- If it is made again it fails for the same cause, whatever is on the disk. -/
theorem pull_fails_again {number : Nat} {uri : Uri} {previous : Option String}
    (pulled : engine.pull env number uri previous = (next, some (.error cause)))
    (files : FileSystem) (again : Nat) (another : Option String) :
    (next.pull (env.on files) again uri another).2 = some (.error cause) := by
  unfold pull at pulled
  split at pulled
  · rename_i session id identified
    obtain ⟨same, -, named⟩ := Session.identity_spec identified
    generalize asked : { engine with session := session }.ask number id = result at pulled
    obtain ⟨after, _ | _ | snapshot⟩ := result <;> cases pulled
    -- The file is remembered now, and still there is nothing to be had for it.
    obtain ⟨rfl, rfl, refused⟩ := ask_refused_iff.mp asked
    have asks : { engine with session := session }.ask again id =
        ({ engine with session := session }, some (.error .schedulerShutdown)) :=
      ask_refused_iff.mpr ⟨rfl, rfl, refused⟩
    simp only [pull, Session.identity_of_known (named id rfl), asks]
    rfl
  · rename_i session other identified
    obtain ⟨rfl, -, nameless⟩ := Session.identity_error identified
    cases pulled
    simp only [pull, nameless]

/-- A query that waited and then fails leaves the session as it is; and if no parse could be started
for it, none is for a new query. -/
theorem resume_failed {query : Query} (resumed : engine.resume query = some next)
    (answered : next.answers = engine.answers ++ [(query.number, .error cause)]) :
    next.session = engine.session ∧ (cause = .schedulerShutdown → ∀ number,
      next.ask number query.handle.id = (next, some (.error cause))) := by
  unfold resume at resumed
  split at resumed
  · cases resumed
  · cases resumed
    refine ⟨rfl, ?_⟩
    rintro rfl
    cases List.append_cancel_left answered
  · split at resumed
    · rename_i between result consulted
      have before := answers_of_consult consulted
      cases resumed
      have same : engine.answers ++ [(query.number, result)] =
          engine.answers ++ [(query.number, .error cause)] := by
        rw [← answered, ← before]
        rfl
      cases List.append_cancel_left same
      obtain ⟨rfl, rfl, refused⟩ := consult_refused_iff.mp consulted
      exact ⟨rfl, fun _ number => ask_refused_iff.mpr ⟨rfl, rfl, refused⟩⟩
    · rename_i between handle consulted
      have before := answers_of_consult consulted
      cases resumed
      have same : engine.answers = engine.answers ++ [(query.number, .error cause)] := by
        rw [← answered, ← before]
      simp at same

end Engine

/-! ## Failed calls -/

/-- In every session, whether or not its work has ended: a call about a document that fails changes
nothing but the open documents and the files that are remembered, of which none is forgotten. The
open documents stay as they are if and only if the call had nothing to record that was not recorded
before. Made again, whatever is on the disk, it fails for the same cause if and only if no outcome
is held for a file for which it has recorded a text; otherwise it is answered that outcome, though
the text was another one before. A pull that fails leaves all but the files that are remembered as
it was, also when it has waited, and fails again. -/
theorem failed_call_fails_again_iff (env : Environment α) (engine : Engine α) :
    (∀ call next cause, DocumentCall.apply env engine.session call = (next, .error cause) →
      (cause = .schedulerShutdown ∨ cause = .invalidUri call.uri.text) ∧
      next.cache = { engine.cache with documents := next.cache.documents } ∧
      (∀ uri id, engine.session.identities.get? uri = some id →
        next.identities.get? uri = some id) ∧
      (∀ id, next.cache.documents.get? id = engine.cache.documents.get? id ∨
        ∃ document, call.Leaves next cause id document ∧
          next.cache.documents.get? id = some document) ∧
      ((∀ id, next.cache.documents.get? id = engine.cache.documents.get? id) ↔
        ∀ id document, call.Leaves next cause id document →
          engine.cache.documents.get? id = some document) ∧
      (∀ files, (call.apply (env.on files) next).2 = .error cause ↔
        ∀ id document, call.Leaves next cause id document → engine.cache.cached? id = none) ∧
      ∀ files id document snapshot, call.Leaves next cause id document →
        engine.cache.cached? id = some snapshot →
        (∀ previous, engine.cache.documents.get? id = some previous →
          previous.text ≠ document.text) ∧
        (call.apply (env.on files) next).2 = .ok (some ⟨id, snapshot.revision, true⟩)) ∧
    (∀ number uri previous next cause,
      engine.pull env number uri previous = (next, some (.error cause)) →
      (cause = .schedulerShutdown ∨ cause = .invalidUri uri.text) ∧
      next.cache = engine.cache ∧ next.queries = engine.queries ∧
      (∀ other id, engine.session.identities.get? other = some id →
        next.session.identities.get? other = some id) ∧
      ∀ files again another,
        (next.pull (env.on files) again uri another).2 = some (.error cause)) ∧
    (∀ query next cause, engine.resume query = some next →
      next.answers = engine.answers ++ [(query.number, .error cause)] →
      next.session = engine.session ∧ (cause = .schedulerShutdown → ∀ number,
        next.ask number query.handle.id = (next, some (.error cause)))) := by
  refine ⟨fun call next cause failed => ?_, fun number uri previous next cause pulled => ?_,
    fun query next cause resumed answered => Engine.resume_failed resumed answered⟩
  · have fails := DocumentCall.fails_of_apply failed
    have heeded := DocumentCall.heeded_of_apply failed
    refine ⟨fails.cause_eq, fails.cache_eq, fun _ _ => fails.known, fails.kept_or_left,
      fails.documents_iff, fun files => ⟨fun again id document leaves => ?_,
      fails.again (heeded files)⟩, fun files id document snapshot leaves held =>
        ⟨fun _ => fails.text_ne leaves held, fails.answered_again (heeded files) leaves held⟩⟩
    cases held : engine.cache.cached? id with
    | none => rfl
    | some snapshot =>
      have answered := fails.answered_again (heeded files) leaves held
      cases answered.symm.trans again
  · obtain ⟨named, cache, queries, known⟩ := Engine.pull_failed pulled
    exact ⟨named, cache, queries, known, Engine.pull_fails_again pulled⟩

namespace Trial

/-- A document is opened, parsed and announced, and then the work is ended. -/
def farewell : List Happening :=
  .name address :: parse 1 ++
  [.act (.move 1 .store), .act (.move 1 .publish), .act .shutdown, .act (.proceed .stopAdmitting),
    .act (.sweep [file] file), .act (.proceed (.abandon []))]

/-- The dialogue after that. -/
def parted : Option (Dialogue Unit) :=
  farewell.foldlM (Dialogue.step (env 1))
    (.initial ⟨⟨Cache.empty, Table.empty⟩, [], []⟩ (env 1).files)

/-- The steps can be taken. -/
theorem exists_parted :
    ∃ dialogue, parted = some dialogue ∧ Dialogue.Reached (env 1) dialogue := by
  have start : Dialogue.Reached (env 1)
      (.initial ⟨⟨Cache.empty, Table.empty⟩, [], []⟩ (env 1).files) := .start rfl _
  have played : parted.isSome := by decide +kernel
  obtain ⟨dialogue, went⟩ := Option.isSome_iff_exists.mp played
  exact ⟨dialogue, went, start.play went⟩

/-- The client changes the text after that. -/
def lateChange : DocumentCall := .changed address "sound"

/-- The client opens the other file after that. -/
def lateOpening : DocumentCall := .opened otherAddress "java" "sound"

end Trial

open Trial in
/-- After the work has ended the text of a document is changed, and another document is opened and
pulled. All three fail. If the first is made again it is answered the outcome of the text before,
and the others fail again. -/
theorem failed_call_fails_again_after_farewell : ∃ dialogue changed opened pulled,
    Dialogue.Reached (env 1) dialogue ∧
    lateChange.apply (env 1) dialogue.engine.session = (changed, .error .schedulerShutdown) ∧
    (∀ files, (lateChange.apply ((env 1).on files) changed).2 = .ok (some ⟨file, 1, true⟩)) ∧
    lateOpening.apply (env 1) dialogue.engine.session = (opened, .error .schedulerShutdown) ∧
    (∀ files, (lateOpening.apply ((env 1).on files) opened).2 = .error .schedulerShutdown) ∧
    opened.cache.documents.get? otherFile = some ⟨otherAddress, "sound"⟩ ∧
    dialogue.engine.pull (env 1) 0 otherAddress none =
      (pulled, some (.error .schedulerShutdown)) ∧
    pulled.cache = dialogue.engine.cache ∧
    ∀ files number, (pulled.pull ((env 1).on files) number otherAddress none).2 =
      some (.error .schedulerShutdown) := by
  obtain ⟨dialogue, went, reached⟩ := exists_parted
  have changes : (parted.map fun dialogue =>
      let changed := lateChange.apply (env 1) dialogue.engine.session
      (changed.2, changed.1.identities.get? address,
        (dialogue.engine.cache.cached? file).map Snapshot.revision)) =
      some (.error .schedulerShutdown, some file, some 1) := by
    decide +kernel
  have opens : (parted.map fun dialogue =>
      let opened := lateOpening.apply (env 1) dialogue.engine.session
      (opened.2, opened.1.identities.get? otherAddress,
        opened.1.cache.documents.get? otherFile,
        (dialogue.engine.cache.cached? otherFile).map Snapshot.revision)) =
      some (.error .schedulerShutdown, some otherFile, some ⟨otherAddress, "sound"⟩, none) := by
    decide +kernel
  have pulls : (parted.map fun dialogue =>
      (dialogue.engine.pull (env 1) 0 otherAddress none).2) =
      some (some (.error .schedulerShutdown)) := by
    decide +kernel
  rw [went] at changes opens pulls
  simp only [Option.map_some, Option.some.injEq, Prod.mk.injEq] at changes opens pulls
  obtain ⟨refused, named, held⟩ := changes
  obtain ⟨failed, found, left, nothing⟩ := opens
  obtain ⟨snapshot, cached, revision⟩ := Option.map_eq_some_iff.mp held
  obtain ⟨calls, asks, -⟩ := failed_call_fails_again_iff (env 1) dialogue.engine
  obtain ⟨-, -, -, -, -, -, outdated⟩ := calls lateChange _ _ (Prod.ext rfl refused)
  obtain ⟨-, -, -, -, -, again, -⟩ := calls lateOpening _ _ (Prod.ext rfl failed)
  obtain ⟨-, same, -, -, more⟩ := asks 0 otherAddress none _ _ (Prod.ext rfl pulls)
  refine ⟨dialogue, _, _, _, reached, Prod.ext rfl refused, fun files => ?_,
    Prod.ext rfl failed, fun files => (again files).mpr fun id document leaves => ?_, left,
    Prod.ext rfl pulls, same, fun files number => more files number none⟩
  · have leaves : lateChange.Leaves (lateChange.apply (env 1) dialogue.engine.session).1
        .schedulerShutdown file (document "sound") := ⟨rfl, named, rfl, rfl⟩
    rw [(outdated files file _ snapshot leaves cached).2, revision]
  · obtain ⟨-, recalled, -, -⟩ := leaves
    obtain rfl : otherFile = id := Option.some.inj (found.symm.trans recalled)
    exact Option.map_eq_none_iff.mp nothing

open Trial in
/-- After the work has ended the text of a document is changed. The call fails, but the new text is
recorded, and when the call is made again it is answered the outcome of the text before, as if that
were current. -/
theorem repeated_call_gets_outdated_outcome : ∃ dialogue changed,
    Dialogue.Reached (env 1) dialogue ∧
    dialogue.engine.cache.documents.get? file = some (document "unsound") ∧
    lateChange.apply (env 1) dialogue.engine.session = (changed, .error .schedulerShutdown) ∧
    changed.cache.documents.get? file = some (document "sound") ∧
    (changed.cache.cached? file).map (fun snapshot => (snapshot.revision,
      Diagnostic.ofOutcome (env 1).options.diagnosticSource snapshot.outcome)) =
        some (1, [complaint]) ∧
    (lateChange.apply (env 1) changed).2 = .ok (some ⟨file, 1, true⟩) := by
  obtain ⟨dialogue, went, reached⟩ := exists_parted
  have changes : (parted.map fun dialogue =>
      let changed := lateChange.apply (env 1) dialogue.engine.session
      (dialogue.engine.cache.documents.get? file, changed.2, changed.1.cache.documents.get? file,
        (lateChange.apply (env 1) changed.1).2)) =
      some (some (document "unsound"), .error .schedulerShutdown, some (document "sound"),
        .ok (some ⟨file, 1, true⟩)) := by
    decide +kernel
  have cached : (parted.map fun dialogue =>
      ((lateChange.apply (env 1) dialogue.engine.session).1.cache.cached? file).map
        fun snapshot => (snapshot.revision,
          Diagnostic.ofOutcome (env 1).options.diagnosticSource snapshot.outcome)) =
      some (some (1, [complaint])) := by
    decide +kernel
  rw [went] at changes cached
  simp only [Option.map_some, Option.some.injEq, Prod.mk.injEq] at changes cached
  obtain ⟨opened, refused, left, answered⟩ := changes
  exact ⟨dialogue, _, reached, opened, Prod.ext rfl refused, left, cached, answered⟩

end DiagnosticServer
