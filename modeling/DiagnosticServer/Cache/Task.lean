import DiagnosticServer.Cache.Calls

/-!
# What tasks do to the cache

The steps of a task, from waiting for a worker to announcing its outcome. Each step is a function
that answers nothing if the task is not in the stage for it. Storing an outcome and announcing it
are two steps, and so are seeing that a document was closed and dropping its entry; other steps may
fall between them.
-/

namespace DiagnosticServer.Cache

variable {α : Type}

/-- The cache with a task in another stage. -/
def moveTask (cache : Cache α) (revision : Nat) (stage : Stage α) : Cache α :=
  { cache with
    tasks := cache.tasks.map fun task =>
      if task.revision = revision then { task with stage := stage } else task }

/-- The cache without a task. -/
def dropTask (cache : Cache α) (revision : Nat) : Cache α :=
  { cache with tasks := cache.tasks.filter fun task => task.revision ≠ revision }

/-- The cache in which a task is done with its entry. -/
def finishTask (cache : Cache α) (revision : Nat) : Cache α :=
  { cache with finished := revision :: cache.finished }

/-- The cache with one more event. -/
def report (cache : Cache α) (event : Event α) : Cache α :=
  { cache with history := cache.history ++ [event] }

/-- The cache without the mark of a parse with that revision. -/
def discardPending (cache : Cache α) (id : Identity) (revision : Nat) : Cache α :=
  match cache.entries.get? id with
  | some (.pending current _ _) =>
    if current = revision then { cache with entries := cache.entries.erase id } else cache
  | _ => cache

/-- A queued task gets a worker, if one of that many is free. -/
def assignWorker (workers : Nat) (cache : Cache α) (task : Task α) : Option (Cache α) :=
  match task.stage with
  | .queued =>
    if cache.admitting && cache.busy < workers then some (cache.moveTask task.revision .admitted)
    else none
  | _ => none

/-- A queued task learns that it will never get a worker, and gives up. -/
def refuse (cache : Cache α) (task : Task α) : Option (Cache α) :=
  match task.stage with
  | .queued =>
    if cache.admitting then none
    else some ((cache.discardPending task.id task.revision).dropTask task.revision)
  | _ => none

/-- A task with a worker looks up the document that is open in the editor. -/
def readDocument (cache : Cache α) (task : Task α) : Option (Cache α) :=
  match task.stage with
  | .admitted => some (cache.moveTask task.revision (.reading (cache.documents.get? task.id)))
  | _ => none

/-- A task starts the parser on the text it has found, with the source roots known now. A file that
cannot be read has its outcome without a parser. -/
def launch (env : Environment α) (cache : Cache α) (task : Task α) : Option (Cache α) :=
  match task.stage with
  | .reading document =>
    let uri := document.map Document.uri
    match Parse.prepare env.files cache.roots task.id (document.map Document.text) with
    | .error outcome => some (cache.moveTask task.revision (.parsed uri outcome))
    | .ok call =>
      some ((cache.moveTask task.revision (.parsing uri call)).report
        (.called task.id task.revision call))
  | _ => none

/-- The parser ends: the source roots it reveals become known and the worker is free again. The
outcome of a parse for which nobody waits is lost. -/
def complete (env : Environment α) (cache : Cache α) (task : Task α) : Option (Cache α) :=
  let learn (outcome : Outcome α) : Cache α :=
    { cache with roots := cache.roots.registerAll outcome.revealed }
  match task.stage with
  | .parsing uri call =>
    let outcome := Parse.run env.parser task.id call
    some ((learn outcome).moveTask task.revision (.parsed uri outcome))
  | .orphaned call => some ((learn (Parse.run env.parser task.id call)).dropTask task.revision)
  | _ => none

/-- Puts the outcome of a task into the cache. -/
def install (cache : Cache α) (task : Task α) (uri : Option Uri) (outcome : Outcome α) : Cache α :=
  let entry := .ready task.revision outcome
  let stored := { cache with entries := cache.entries.insert task.id entry }
  (stored.finishTask task.revision).moveTask task.revision (.installed uri outcome)

/-- A task ends without leaving its outcome in the cache. -/
def retire (cache : Cache α) (task : Task α) : Cache α :=
  (cache.finishTask task.revision).dropTask task.revision

/-- A task whose parser has ended stores the outcome, unless the entry of its file says otherwise:
an entry that is gone or belongs to another parse is left alone, a closed document loses its entry
in the next step, and a dirty one is parsed again instead. -/
def store (cache : Cache α) (task : Task α) : Option (Cache α) :=
  match task.stage with
  | .parsed uri outcome =>
    match cache.entries.get? task.id with
    | none => some (cache.retire task)
    | some (.pending revision dirty closed) =>
      if revision ≠ task.revision then some (cache.retire task)
      else if closed then some (cache.moveTask task.revision .condemned)
      else if dirty then
        match cache.start task.id with
        | (restarted, .ok _) => some (restarted.retire task)
        | (_, .error _) => some (cache.install task uri outcome)
      else some (cache.install task uri outcome)
    | some (.ready revision _) =>
      if revision < task.revision then some (cache.install task uri outcome)
      else some (cache.retire task)
  | _ => none

/-- A task that saw its document closed drops the entry, if it is still its own. -/
def discard (cache : Cache α) (task : Task α) : Option (Cache α) :=
  match task.stage with
  | .condemned => some ((cache.discardPending task.id task.revision).retire task)
  | _ => none

/-- A task tells the client of the outcome it has stored. -/
def publish (env : Environment α) (cache : Cache α) (task : Task α) : Option (Cache α) :=
  match task.stage with
  | .installed uri outcome =>
    let sent := Notification.announce env.files env.options task.id uri outcome
    some ((cache.report (.announced task.id task.revision uri outcome sent)).dropTask task.revision)
  | _ => none

/-- A task that was told to stop does so where it waits: for a worker, for the parser, or to go on
after the parser. A running parser cannot be stopped and keeps its worker. -/
def stop (cache : Cache α) (task : Task α) : Option (Cache α) :=
  if task.aborted then
    match task.stage with
    | .queued | .parsed _ _ => some (cache.dropTask task.revision)
    | .parsing _ call => some (cache.moveTask task.revision (.orphaned call))
    | _ => none
  else none

/-- The next step of a task, if it can take one without a parser having to end. A task that can stop
does. -/
def advance (env : Environment α) (cache : Cache α) (task : Task α) : Option (Cache α) :=
  match cache.stop task with
  | some stopped => some stopped
  | none =>
    match task.stage with
    | .queued => if cache.admitting then cache.assignWorker env.workers task else cache.refuse task
    | .admitted => cache.readDocument task
    | .reading _ => cache.launch env task
    | .parsing _ _ | .orphaned _ => none
    | .parsed _ _ => cache.store task
    | .condemned => cache.discard task
    | .installed _ _ => cache.publish env task

end DiagnosticServer.Cache
