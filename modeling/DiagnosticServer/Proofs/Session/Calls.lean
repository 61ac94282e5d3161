import DiagnosticServer.Proofs.Session.Dialogue

/-!
# The calls about documents

A client tells a session that a document was opened, changed, saved or closed. All four find the
file that their URI names and then serve it (`DocumentCall.apply_eq`), and what recording a text
comes to depends on the entry of the file alone (`Cache.Updates`). The modules that speak of what
becomes of such calls start from here.
-/

namespace DiagnosticServer

variable {α : Type}

open Cache

/-! ## Recording a text -/

namespace Cache

variable {cache : Cache α} {id : Identity} {document : Document}

/-- What recording the text of a document can come to: the cache after it and the answer. -/
inductive Updates (cache : Cache α) (id : Identity) (document : Document) :
    Cache α × Except Error Handle → Prop where
  /-- A parse is on its way, and is told. -/
  | told {revision : Nat} {dirty closed : Bool} (dirty' : Bool)
      (entry : cache.entries.get? id = some (.pending revision dirty closed)) :
      Updates cache id document
        ({ (cache.recordDocument id document).1 with
            entries := cache.entries.insert id (.pending revision dirty' false) },
          .ok ⟨id, revision, false⟩)
  /-- The outcome at hand is one of the same text. -/
  | good {snapshot : Snapshot α} (held : cache.cached? id = some snapshot)
      (unchanged : (cache.recordDocument id document).2 = true) :
      Updates cache id document
        ((cache.recordDocument id document).1, .ok ⟨id, snapshot.revision, true⟩)
  /-- There is nothing at hand for the text, and a parse has to be started. -/
  | wanting
      (free : ∀ revision dirty closed,
        cache.entries.get? id ≠ some (.pending revision dirty closed))
      (stale : cache.cached? id = none ∨ (cache.recordDocument id document).2 = false) :
      Updates cache id document ((cache.recordDocument id document).1.start id)

/-- Every text is recorded in one of these ways. -/
theorem updates_updateDocument (cache : Cache α) (id : Identity) (document : Document) :
    Updates cache id document (cache.updateDocument id document) := by
  unfold updateDocument
  have same : (cache.recordDocument id document).1.entries = cache.entries := rfl
  cases entry : cache.entries.get? id with
  | none =>
    have asked : (cache.recordDocument id document).1.requestParse id =
        (cache.recordDocument id document).1.start id := by
      simp only [requestParse, same, entry]
    simp only [reviseEntry, same, entry, asked]
    exact .wanting (free_of_none entry) (.inl (by simp only [cached?, entry]))
  | some held =>
    cases held with
    | pending revision dirty closed =>
      simp only [reviseEntry, same, entry]
      exact .told _ entry
    | ready revision outcome =>
      have held : cache.cached? id = some ⟨revision, outcome⟩ := cached?_eq_some.mpr entry
      have asked : (cache.recordDocument id document).1.requestParse id =
          (cache.recordDocument id document).1.start id := by
        simp only [requestParse, same, entry]
      cases unchanged : (cache.recordDocument id document).2 with
      | true =>
        simp only [reviseEntry, same, entry, unchanged, if_true]
        exact .good held unchanged
      | false =>
        simp only [reviseEntry, same, entry, unchanged, Bool.false_eq_true, if_false, asked]
        exact .wanting (free_of_ready entry) (.inr unchanged)

/-- Starting a parse leaves the open documents and whether parses may be started. -/
theorem start_frame (cache : Cache α) (id : Identity) :
    (cache.start id).1.documents = cache.documents ∧
      (cache.start id).1.accepting = cache.accepting := by
  unfold start
  split_ifs <;> exact ⟨rfl, rfl⟩

/-- So does asking for one. -/
theorem requestParse_frame (cache : Cache α) (id : Identity) :
    (cache.requestParse id).1.documents = cache.documents ∧
      (cache.requestParse id).1.accepting = cache.accepting := by
  unfold requestParse
  split
  · exact ⟨rfl, rfl⟩
  · exact cache.start_frame id

/-- Whoever asks for a parse while parses may be started gets a handle. -/
theorem requestParse_answered (accepting : cache.accepting = true) (id : Identity) :
    ∃ handle, (cache.requestParse id).2 = .ok handle ∧ handle.id = id := by
  unfold requestParse
  split
  · exact ⟨_, rfl, rfl⟩
  · rw [start, if_pos accepting]
    exact ⟨_, rfl, rfl⟩

/-- Recording a text opens its document, whatever is answered. -/
theorem updateDocument_frame (cache : Cache α) (id : Identity) (document : Document) :
    (cache.updateDocument id document).1.documents = cache.documents.insert id document ∧
      (cache.updateDocument id document).1.accepting = cache.accepting := by
  have updates := cache.updates_updateDocument id document
  generalize cache.updateDocument id document = result at updates ⊢
  cases updates with
  | told | good => exact ⟨rfl, rfl⟩
  | wanting => exact start_frame _ _

/-- Whoever records a text while parses may be started gets a handle. -/
theorem updateDocument_answered (accepting : cache.accepting = true) (id : Identity)
    (document : Document) :
    ∃ handle, (cache.updateDocument id document).2 = .ok handle ∧ handle.id = id := by
  have updates := cache.updates_updateDocument id document
  generalize cache.updateDocument id document = result at updates ⊢
  cases updates with
  | told | good => exact ⟨_, rfl, rfl⟩
  | wanting =>
    have still : (cache.recordDocument id document).1.accepting = true := accepting
    rw [start, if_pos still]
    exact ⟨_, rfl, rfl⟩

end Cache

/-! ## The four calls -/

/-- Finding the file that a URI names leaves the cache alone. -/
theorem Session.cache_of_identity (session : Session α) (files : FileSystem) (uri : Uri) :
    (session.identity files uri).1.cache = session.cache := (identity_spec rfl).1

/-- Finding the file of a URI that is remembered changes nothing. -/
theorem Session.identity_of_known {session : Session α} {uri : Uri} {id : Identity}
    (known : session.identities.get? uri = some id) (files : FileSystem) :
    session.identity files uri = (session, .ok id) := by
  simp only [identity, known]

/-- Finding the file that a URI names forgets no other. -/
theorem Session.identities_of_identity {session next : Session α} {files : FileSystem} {uri : Uri}
    {found : Except Error Identity} (identified : session.identity files uri = (next, found))
    {other : Uri} {id : Identity} (known : session.identities.get? other = some id) :
    next.identities.get? other = some id := by
  unfold identity at identified
  split at identified
  · cases identified
    exact known
  · rename_i unknown
    split at identified <;> cases identified
    · rw [Table.get?_insert, if_neg]
      · exact known
      · rintro rfl
        cases unknown.symm.trans known
    · exact known

/-- Where a URI names no file, the session stays as it is, and the URI names none on any disk. -/
theorem Session.identity_error {session next : Session α} {files : FileSystem} {uri : Uri}
    {cause : Error} (identified : session.identity files uri = (next, .error cause)) :
    next = session ∧ cause = .invalidUri uri.text ∧
      ∀ others, session.identity others uri = (session, .error cause) := by
  unfold identity at identified ⊢
  split at identified
  · cases identified
  · rename_i unknown
    split at identified
    · cases identified
    · rename_i other named
      cases identified
      unfold Identity.ofUri at named
      split at named
      · cases named
      · rename_i nameless
        cases named
        refine ⟨rfl, rfl, fun others => ?_⟩
        simp only [Identity.ofUri, nameless]

/-- A call of a client about a document. -/
inductive DocumentCall where
  /-- It was opened. -/
  | opened (uri : Uri) (language text : String)
  /-- Its text was changed. -/
  | changed (uri : Uri) (text : String)
  /-- It was saved, and the client may have sent its text. -/
  | saved (uri : Uri) (text : Option String)
  /-- It was closed. -/
  | closed (uri : Uri)
deriving DecidableEq

namespace DocumentCall

/-- The URI by which the client speaks of the document. -/
def uri : DocumentCall → Uri
  | opened uri _ _ | changed uri _ | saved uri _ | closed uri => uri

/-- The text that the client has sent. -/
def text? : DocumentCall → Option String
  | opened _ _ text | changed _ text => some text
  | saved _ text => text
  | closed _ => none

/-- What a call makes of a session, and what is answered. -/
def apply (env : Environment α) (session : Session α) :
    DocumentCall → Session α × Except Error (Option Handle)
  | opened uri language text => session.opened env uri language text
  | changed uri text => session.changed env uri text
  | saved uri text => session.saved env uri text
  | closed uri =>
    let (session, result) := session.closed env uri
    (session, result.map fun _ => none)

/-- Whether a call is about a document in a language that the session passes over. -/
def isForeign (env : Environment α) : DocumentCall → Bool
  | opened _ language _ => !env.options.accepts language
  | changed _ _ | saved _ _ | closed _ => false

/-- What a call comes to once its file is found. -/
def serve (env : Environment α) (session : Session α) (id : Identity) :
    DocumentCall → Session α × Except Error (Option Handle)
  | opened uri _ text => session.update id ⟨uri, text⟩
  | changed uri text =>
    if session.cache.isOpen id then session.update id ⟨uri, text⟩ else (session, .ok none)
  | saved uri text =>
    if session.cache.isOpen id then
      match text with
      | some text => session.update id ⟨uri, text⟩
      | none =>
        let (cache, handle) := session.cache.requestParse id
        ({ session with cache := cache }, handle.map some)
    else (session, .ok none)
  | closed uri =>
    ({ cache := session.cache.closeDocument env.options.evictOnClose id
       identities := session.identities.erase uri }, .ok none)

/-- A call finds its file and serves it, unless it is passed over. -/
theorem apply_eq (env : Environment α) (session : Session α) (call : DocumentCall) :
    call.apply env session =
      if call.isForeign env then (session, .ok none)
      else session.withIdentity env.files call.uri fun session id => call.serve env session id := by
  cases call with
  | opened uri language text =>
    simp only [apply, Session.opened, isForeign, Bool.not_eq_true']
    by_cases accepted : env.options.accepts language = true
    · rw [if_pos accepted, if_neg (by rw [accepted]; exact nofun)]
      rfl
    · rw [if_neg accepted, if_pos (Bool.eq_false_iff.mpr accepted)]
  | changed uri text => rfl
  | saved uri text => rfl
  | closed uri =>
    unfold apply Session.closed isForeign Session.withIdentity
    dsimp only [DocumentCall.uri]
    split <;> rfl

/-- A call is passed over, or its URI names no file, or it is served. -/
theorem apply_cases (env : Environment α) (session : Session α) (call : DocumentCall) :
    call.isForeign env = true ∧ call.apply env session = (session, .ok none) ∨
    call.isForeign env = false ∧
      ((∃ cause, session.identity env.files call.uri = (session, .error cause) ∧
          call.apply env session = (session, .error cause)) ∨
        ∃ known id, session.identity env.files call.uri = (known, .ok id) ∧
          call.apply env session = call.serve env known id) := by
  rw [apply_eq]
  cases foreign : call.isForeign env with
  | true => exact .inl ⟨rfl, if_pos rfl⟩
  | false =>
    refine .inr ⟨rfl, ?_⟩
    rw [if_neg Bool.false_ne_true]
    unfold Session.withIdentity
    split
    · exact .inr ⟨_, _, ‹_›, rfl⟩
    · rename_i known cause identified
      obtain ⟨rfl, -, -⟩ := Session.identity_error identified
      exact .inl ⟨cause, identified, rfl⟩

/-- A call whose file is remembered is served, unless it is passed over. -/
theorem apply_of_known {env : Environment α} {session : Session α} {call : DocumentCall}
    {id : Identity} (heeded : call.isForeign env = false)
    (known : session.identities.get? call.uri = some id) :
    call.apply env session = call.serve env session id := by
  rw [apply_eq, heeded, if_neg Bool.false_ne_true, Session.withIdentity,
    Session.identity_of_known known]

/-- A call that has sent a text for an open document records it. -/
theorem serve_of_text {env : Environment α} {session : Session α} {call : DocumentCall}
    {id : Identity} {text : String} (given : call.text? = some text)
    (opened : session.cache.isOpen id = true) :
    call.serve env session id = session.update id ⟨call.uri, text⟩ := by
  cases call with
  | opened uri language sent =>
    cases given
    rfl
  | changed uri sent =>
    cases given
    exact if_pos opened
  | saved uri sent =>
    cases given
    exact if_pos opened
  | closed uri => cases given

end DocumentCall

end DiagnosticServer
