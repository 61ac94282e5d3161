import DiagnosticServer.Cache.Task

/-!
# Sessions

A session serves one client. Clients speak of documents by URI; the session remembers which file
each URI named, so that it is looked up on the disk once and not at every keystroke, until the
document is closed under that URI.
-/

namespace DiagnosticServer

/-- What is remembered between the calls of a client. -/
structure Session (α : Type) where
  /-- The parse cache. -/
  cache : Cache α
  /-- The files that URIs have named. -/
  identities : Table Uri Identity

/-- Why no session could be made. -/
inductive StartError where
  /-- More workers were asked for than can be counted. -/
  | tooManyWorkers
deriving DecidableEq, Repr

/-- The words for a failure to start. -/
def StartError.message : StartError → String
  | tooManyWorkers =>
    "a semaphore may not have more than MAX_PERMITS permits (2305843009213693951)"

namespace Session

variable {α : Type}

/-- The most workers that can be counted. -/
def workerLimit : Nat := Nat.pow 2 61 - 1

/-- A session at its start. -/
def create (env : Environment α) : Except StartError (Session α) :=
  if env.workers ≤ workerLimit then .ok ⟨Cache.empty, Table.empty⟩ else .error .tooManyWorkers

/-- The file that a URI names, as it is remembered or else as it is now. -/
def identity (session : Session α) (files : FileSystem) (uri : Uri) :
    Session α × Except Error Identity :=
  match session.identities.get? uri with
  | some id => (session, .ok id)
  | none =>
    match Identity.ofUri files uri with
    | .ok id => ({ session with identities := session.identities.insert uri id }, .ok id)
    | .error cause => (session, .error cause)

/-- Calls `onward` with the file that a URI names, unless it names none. -/
def withIdentity {β : Type} (session : Session α) (files : FileSystem) (uri : Uri)
    (onward : Session α → Identity → Session α × Except Error β) : Session α × Except Error β :=
  match session.identity files uri with
  | (session, .ok id) => onward session id
  | (session, .error cause) => (session, .error cause)

/-- Records the text of a document. -/
def update (session : Session α) (id : Identity) (document : Document) :
    Session α × Except Error (Option Handle) :=
  let (cache, handle) := session.cache.updateDocument id document
  ({ session with cache := cache }, handle.map some)

/-- A document was opened. Documents in other languages are passed over. -/
def opened (env : Environment α) (session : Session α) (uri : Uri) (language text : String) :
    Session α × Except Error (Option Handle) :=
  if env.options.accepts language then
    session.withIdentity env.files uri fun session id => session.update id ⟨uri, text⟩
  else (session, .ok none)

/-- The text of a document was changed. Documents that are not open are passed over. -/
def changed (env : Environment α) (session : Session α) (uri : Uri) (text : String) :
    Session α × Except Error (Option Handle) :=
  session.withIdentity env.files uri fun session id =>
    if session.cache.isOpen id then session.update id ⟨uri, text⟩ else (session, .ok none)

/-- A document was saved, and is parsed again. The client may have sent the text. Documents that are
not open are passed over. -/
def saved (env : Environment α) (session : Session α) (uri : Uri) (text : Option String) :
    Session α × Except Error (Option Handle) :=
  session.withIdentity env.files uri fun session id =>
    if session.cache.isOpen id then
      match text with
      | some text => session.update id ⟨uri, text⟩
      | none =>
        let (cache, handle) := session.cache.requestParse id
        ({ session with cache := cache }, handle.map some)
    else (session, .ok none)

/-- A document was closed. -/
def closed (env : Environment α) (session : Session α) (uri : Uri) :
    Session α × Except Error Unit :=
  session.withIdentity env.files uri fun session id =>
    ({ cache := session.cache.closeDocument env.options.evictOnClose id
       identities := session.identities.erase uri }, .ok ())

/-- The client is leaving. -/
def shutdown (session : Session α) : Session α := { session with cache := session.cache.shutdown }

end Session

end DiagnosticServer
