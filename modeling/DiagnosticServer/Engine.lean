import DiagnosticServer.Session

/-!
# Running a session

Between the calls of a client the engine moves the tasks of its session, oldest first, and serves
the queries that wait for them. A running parser ends when it is released, either by hand or, if the
engine runs by itself, in the order of the files' names once nothing else can move. A session has
settled when nothing moves any more.
-/

namespace DiagnosticServer

/-- A question for the outcome of a file that waits for a parse. -/
structure Query where
  /-- The number under which it was asked. -/
  number : Nat
  /-- The parse it waits for. -/
  handle : Handle

/-- How the parsers that are running come to their ends. -/
structure Schedule where
  /-- Whether they are released without being asked to. -/
  automatic : Bool
  /-- The name by which a file takes its turn. -/
  name : Identity → String

namespace Schedule

/-- Every parser ends, in the order of the files' paths. -/
def byPath : Schedule := ⟨true, Identity.text⟩

end Schedule

/-- A session with the queries that wait in it. -/
structure Engine (α : Type) where
  /-- The session. -/
  session : Session α
  /-- The queries that wait, oldest first. -/
  queries : List Query
  /-- The queries that have been answered, oldest answer first. -/
  answers : List (Nat × Except Error (Snapshot α))

namespace Engine

variable {α : Type}

/-- An engine for a new session. -/
def create (env : Environment α) : Except StartError (Engine α) :=
  (Session.create env).map fun session => ⟨session, [], []⟩

/-- The cache of the session. -/
def cache (engine : Engine α) : Cache α := engine.session.cache

/-- The engine with another cache. -/
def withCache (engine : Engine α) (cache : Cache α) : Engine α :=
  { engine with session := { engine.session with cache := cache } }

/-! ## Queries -/

/-- What a query comes to when it looks its file up. -/
inductive Answer (α : Type) where
  /-- It is answered. -/
  | done (result : Except Error (Snapshot α))
  /-- It has to wait. -/
  | waits (handle : Handle)

/-- Looks a file up for a query. -/
def consult (engine : Engine α) (id : Identity) : Engine α × Answer α :=
  match engine.cache.lookup id with
  | (cache, .ok (.ready snapshot)) => (engine.withCache cache, .done (.ok snapshot))
  | (cache, .ok (.inFlight handle)) => (engine.withCache cache, .waits handle)
  | (cache, .error cause) => (engine.withCache cache, .done (.error cause))

/-- Asks for the outcome of a file. A query that cannot be answered at once waits. -/
def ask (engine : Engine α) (number : Nat) (id : Identity) :
    Engine α × Option (Except Error (Snapshot α)) :=
  match engine.consult id with
  | (engine, .done result) => (engine, some result)
  | (engine, .waits handle) =>
    ({ engine with queries := engine.queries ++ [⟨number, handle⟩] }, none)

/-- The engine in which a query is answered. -/
def answer (engine : Engine α) (number : Nat) (result : Except Error (Snapshot α)) : Engine α :=
  { engine with
    queries := engine.queries.filter fun query => query.number ≠ number
    answers := engine.answers ++ [(number, result)] }

/-- Goes on with a query whose parse has ended: it looks its file up again, and may have to wait for
another parse. -/
def resume (engine : Engine α) (query : Query) : Option (Engine α) :=
  match engine.cache.progress query.handle with
  | .waiting => none
  | .abandoned =>
    some (engine.answer query.number (.error (.taskAbandoned query.handle.id.text)))
  | .finished =>
    match engine.consult query.handle.id with
    | (engine, .done result) => some (engine.answer query.number result)
    | (engine, .waits handle) =>
      some { engine with
        queries := engine.queries.map fun other =>
          if other.number = query.number then { other with handle := handle } else other }

/-! ## Parsers that are held -/

/-- The tasks whose parsers can be released, oldest first. -/
def releasable (engine : Engine α) : List (Task α) :=
  engine.cache.tasks.filter fun task =>
    match task.stage with
    | .parsing _ _ => !task.aborted
    | _ => false

/-- The tasks whose parsers can be released, in the order in which they take their turns. -/
def inTurn (schedule : Schedule) (engine : Engine α) : List (Task α) :=
  engine.releasable.mergeSort fun a b =>
    (compare (schedule.name a.id) (schedule.name b.id)).isLE

/-- The files whose parsers are running, including those for which nobody waits. -/
def held (engine : Engine α) : List Identity :=
  (engine.cache.tasks.filter fun task => task.stage.isRunning).map Task.id

/-- Lets the parser of a task end. -/
def releaseTask (env : Environment α) (engine : Engine α) (task : Task α) : Option (Engine α) :=
  (engine.cache.complete env task).map engine.withCache

/-- Lets the parser of a file end, if one is running and waited for. -/
def release (env : Environment α) (engine : Engine α) (id : Identity) : Option (Engine α) :=
  (engine.releasable.find? fun task => task.id = id).bind (engine.releaseTask env)

/-! ## Settling -/

/-- The next move: a step of the oldest task that can take one, else of the oldest query whose parse
has ended, else, if the engine runs by itself, the end of the parser whose turn it is. -/
def next (env : Environment α) (schedule : Schedule) (engine : Engine α) : Option (Engine α) :=
  match engine.cache.tasks.findSome? (engine.cache.advance env) with
  | some cache => some (engine.withCache cache)
  | none =>
    match engine.queries.findSome? engine.resume with
    | some resumed => some resumed
    | none =>
      if schedule.automatic then (engine.inTurn schedule).head?.bind (engine.releaseTask env)
      else none

/-- The state after at most that many moves. -/
def moves (env : Environment α) (schedule : Schedule) : Nat → Engine α → Engine α
  | 0, engine => engine
  | count + 1, engine =>
    match engine.next env schedule with
    | some moved => moves env schedule count moved
    | none => engine

/-- A number of moves after which nothing moves. A task takes at most six steps and may give way to
another one, and a query may look its file up three times and start a task. -/
def patience (engine : Engine α) : Nat :=
  16 * engine.cache.tasks.length + 16 * engine.queries.length + 1

/-- The state in which nothing moves any more. -/
def settle (env : Environment α) (schedule : Schedule) (engine : Engine α) : Engine α :=
  engine.moves env schedule engine.patience

/-- Asks for the outcome of a file and settles, which brings the answer. -/
def inquire (env : Environment α) (engine : Engine α) (id : Identity) :
    Engine α × Option (Except Error (Snapshot α)) :=
  let number := engine.answers.length
  match engine.ask number id with
  | (engine, some result) => (engine.settle env .byPath, some result)
  | (engine, none) =>
    let engine := engine.settle env .byPath
    (engine, engine.answers.lookup number)

/-- Lets the parsers that are held now end, one after the other, and settles after each. The number
of them is answered too. -/
def releaseAll (env : Environment α) (schedule : Schedule) (engine : Engine α) :
    Engine α × Nat :=
  let all := (engine.inTurn schedule).map Task.id
  let step (state : Engine α) (id : Identity) : Engine α :=
    match state.release env id with
    | some released => released.settle env schedule
    | none => state
  (all.foldl step engine, all.length)

end Engine

end DiagnosticServer
