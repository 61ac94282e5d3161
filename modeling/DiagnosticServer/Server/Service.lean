import DiagnosticServer.Engine
import DiagnosticServer.Server.Capabilities
import DiagnosticServer.Server.Message

/-!
# The server

The server serves one client from its start to its exit. Before the start and after the shutdown it
refuses everything that it is not there for. Each message is handled, and all parsing it causes
ends, before the next.
-/

namespace DiagnosticServer

/-- Where the conversation with the client stands. -/
inductive Phase where
  /-- The client has not started the server. -/
  | fresh
  /-- The client is served. -/
  | serving
  /-- The client has asked for the end. -/
  | closing
  /-- The conversation is over. -/
  | exited
deriving DecidableEq, Repr

/-- The session of a client with its options. -/
structure Service (α : Type) where
  /-- The options with which the client started. -/
  options : Options
  /-- The running session. -/
  engine : Engine α

/-- A server. -/
structure Server (α : Type) where
  /-- Where the conversation stands. -/
  phase : Phase
  /-- The session, once there is one. -/
  service : Option (Service α)

/-- What a request is answered with. -/
inductive Response where
  /-- What the server offers. -/
  | capabilities (offered : Capabilities)
  /-- A report. -/
  | report (report : Report)
  /-- Nothing but that it is done. -/
  | nothing

/-- What a message is answered with. -/
inductive Reply where
  /-- No answer. -/
  | none
  /-- The answer to the request with that identifier. -/
  | answer (id : Json) (result : Except Refusal Response)
  /-- Nobody is there to answer. -/
  | exited

namespace Server

variable {α : Type}

/-- The server before its start. -/
def idle : Server α := ⟨.fresh, none⟩

/-- The environment of a session. -/
def environment (host : Host α) (options : Options) : Environment α :=
  { host with options := options }

/-- The notifications sent by a cache between two of its states. -/
def sentBetween (before after : Cache α) : List Notification :=
  (after.history.drop before.history.length).flatMap fun
    | .announced _ _ _ _ sent => sent
    | .called _ _ _ => []

/-- Lets a call of a client change the session, settles, and collects what is sent. Before there is
a session nothing happens. -/
def call (host : Host α) (server : Server α)
    (act : Environment α → Session α → Session α) : Server α × List Notification :=
  match server.service with
  | none => (server, [])
  | some service =>
    let env := environment host service.options
    let acted := { service.engine with session := act env service.engine.session }
    let settled := acted.settle env .byPath
    ({ server with service := some { service with engine := settled } },
      sentBetween service.engine.cache settled.cache)

/-- What the server does with what it is told. What fails is passed over. -/
def hear (host : Host α) (server : Server α) : Notice → Server α × List Notification
  | .started => (server, [.info "jml-lsp ready"])
  | .opened uri language text =>
    server.call host fun env session => (session.opened env uri language text).1
  | .changed uri texts =>
    match texts.getLast? with
    | some text => server.call host fun env session => (session.changed env uri text).1
    | none => (server, [])
  | .saved uri text => server.call host fun env session => (session.saved env uri text).1
  | .closed uri => server.call host fun env session => (session.closed env uri).1
  | .unheeded => (server, [])

/-- Makes a session, unless there is one already. A session that cannot be made takes the server
down with it. -/
def start (host : Host α) (server : Server α) (sent : Option Json) :
    Except StartError (Server α) := do
  let options := Options.ofClient sent
  let engine ← Engine.create (environment host options)
  match server.service with
  | some _ => return server
  | none => return { server with service := some ⟨options, engine⟩ }

/-- Finds the diagnostics of a document, parsing it first if need be. -/
def pull (host : Host α) (server : Server α) (uri : Uri) (previous : Option String) :
    Server α × Option (Except Refusal Response) × List Notification :=
  match server.service with
  | none => (server, some (.error .invalidRequest), [])
  | some service =>
    let env := environment host service.options
    match service.engine.session.identity host.files uri with
    | (session, .error cause) =>
      let engine := { service.engine with session := session }
      ({ server with service := some { service with engine := engine } },
        some (.error (.failed cause)), [])
    | (session, .ok id) =>
      let (engine, result) := { service.engine with session := session }.inquire env id
      let answer (snapshot : Snapshot α) : Response :=
        .report (Report.ofOutcome service.options.diagnosticSource snapshot.revision
          snapshot.outcome previous)
      ({ server with service := some { service with engine := engine } },
        result.map fun result => (result.mapError .failed).map answer,
        sentBetween service.engine.cache engine.cache)

/-- What the server does with a request. -/
def serve (host : Host α) (server : Server α) :
    Request → Except StartError (Server α × Option (Except Refusal Response) × List Notification)
  | .start options => do
    return (← server.start host options, some (.ok (.capabilities Capabilities.offered)), [])
  | .pull uri previous => return server.pull host uri previous
  | .shutdown =>
    let (server, sent) := server.call host fun _ session => session.shutdown
    return (server, some (.ok .nothing), sent)
  | .unserved => return (server, some (.error .unserved), [])

/-! ## The conversation -/

/-- Refuses a message, if it has an identifier to answer to. -/
def refuse (message : Message) (refusal : Refusal) : Reply :=
  match message.id with
  | some id => .answer id (.error refusal)
  | none => .none

/-- What the client gets to see. Before its start it hears the log but no diagnostics, and after
the exit it hears nothing. -/
def audible (server : Server α) (sent : List Notification) : List Notification :=
  match server.phase with
  | .fresh => sent.filter Notification.isLogged
  | .serving | .closing => sent
  | .exited => []

/-- Serves a request that may be made now. A request without an identifier and one whose parameters
cannot be read are not served. -/
def answer (host : Host α) (server : Server α) (message : Message)
    (read : Option Json → Except ParamsFault Request) :
    Except StartError (Server α × Reply × List Notification) :=
  match message.id, read message.params with
  | none, _ => return (server, .none, [])
  | some id, .error fault => return (server, .answer id (.error (.invalidParams fault)), [])
  | some id, .ok request => do
    let (server, result, sent) ← server.serve host request
    return (server, result.elim .none (.answer id), sent)

/-- Hears a notification that may be made now. One with an identifier is refused, and one whose
parameters cannot be read is passed over. -/
def attend (host : Host α) (server : Server α) (message : Message)
    (read : Option Json → Except ParamsFault Notice) : Server α × Reply × List Notification :=
  match message.id, read message.params with
  | some id, _ => (server, .answer id (.error .invalidRequest), [])
  | none, .error _ => (server, .none, [])
  | none, .ok notice =>
    let (server, sent) := server.hear host notice
    (server, .none, sent)

/-- Whether an answer tells what the server offers, as only a start does. -/
def isStarted : Reply → Bool
  | .answer _ (.ok (.capabilities _)) => true
  | _ => false

/-- Handles a start. It succeeds once, and the client is served from then on. -/
def begin (host : Host α) (server : Server α) (message : Message) :
    Except StartError (Server α × Reply × List Notification) := do
  if server.phase = .fresh then
    let (server, reply, sent) ← server.answer host message Method.readStart
    return (if isStarted reply then { server with phase := .serving } else server, reply, sent)
  else return (server, refuse message .invalidRequest, [])

/-- Handles a message of a known method where it is in place. Asking for the end ends the serving,
whatever becomes of the request. When an answer is not wanted any more it has been given already, so
nothing is left to do; as a request this is refused. -/
def handle (host : Host α) (server : Server α) (message : Message) :
    Method → Except StartError (Server α × Reply × List Notification)
  | .start => server.begin host message
  | .shutdown => { server with phase := .closing }.answer host message Method.readShutdown
  | .request read => server.answer host message read
  | .notice read => return server.attend host message read
  | .cancel => return (server, refuse message .invalidRequest, [])
  | .exit => return ({ server with phase := .exited }, .none, [])

/-- Handles a message of a known method: a start is only in place before the client is served, a
cancellation and an exit always, and all else while the client is served. -/
def dispatch (host : Host α) (server : Server α) (message : Message) (method : Method) :
    Except StartError (Server α × Reply × List Notification) :=
  match method, server.phase with
  | .start, _ | .cancel, _ | .exit, _ | _, .serving => server.handle host message method
  | _, .fresh => return (server, refuse message .notStarted, [])
  | _, .closing | _, .exited => return (server, refuse message .invalidRequest, [])

/-- Handles a message: the server afterwards, its reply, and what it sends to the client. A message
of an unknown method is refused, unless its name says that it may be ignored. -/
def receive (host : Host α) (server : Server α) (message : Message) :
    Except StartError (Server α × Reply × List Notification) := do
  if server.phase = .exited then return (server, .exited, [])
  match Method.ofName? message.method with
  | some method =>
    let (server, reply, sent) ← server.dispatch host message method
    return (server, reply, server.audible sent)
  | none =>
    if "$/".toList.isPrefixOf message.method.toList then return (server, .none, [])
    else return (server, refuse message (.unknownMethod message.method), [])

end Server

end DiagnosticServer
