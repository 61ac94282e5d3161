import DiagnosticServer.Cache.Basic

/-!
# What clients do to the cache

Clients ask for parses, look outcomes up, and record and forget the texts open in the editor. A call
that touches both the documents and the entries does so in separate steps, between which tasks may
move; each step is a function of its own, and the call is their composition.
-/

namespace DiagnosticServer.Cache

variable {α : Type}

/-- The cache with one more parse of a file: a new task, and the mark of it in place of the file's
entry. -/
def schedule (cache : Cache α) (id : Identity) : Cache α :=
  let revision := cache.lastRevision + 1
  { cache with
    lastRevision := revision
    started := cache.started ++ [(id, revision)]
    tasks := cache.tasks ++ [⟨id, revision, .queued, false⟩]
    entries := cache.entries.insert id (.pending revision false false) }

/-- Starts a parse of a file, as long as parses may be started. -/
def start (cache : Cache α) (id : Identity) : Cache α × Except Error Handle :=
  if cache.accepting then (cache.schedule id, .ok ⟨id, cache.lastRevision + 1, false⟩)
  else (cache, .error .schedulerShutdown)

/-- Asks for a parse of a file. One that is on its way serves as well as a new one. -/
def requestParse (cache : Cache α) (id : Identity) : Cache α × Except Error Handle :=
  match cache.entries.get? id with
  | some (.pending revision _ _) => (cache, .ok ⟨id, revision, false⟩)
  | _ => cache.start id

/-- What looking a file up comes to. -/
inductive Lookup (α : Type) where
  /-- An outcome is held. -/
  | ready (snapshot : Snapshot α)
  /-- A parse is on its way. -/
  | inFlight (handle : Handle)

/-- Looks a file up, and starts a parse if nothing is held for it. -/
def lookup (cache : Cache α) (id : Identity) : Cache α × Except Error (Lookup α) :=
  match cache.entries.get? id with
  | some (.pending revision _ _) => (cache, .ok (.inFlight ⟨id, revision, false⟩))
  | some (.ready revision outcome) => (cache, .ok (.ready ⟨revision, outcome⟩))
  | none =>
    let (cache, handle) := cache.start id
    (cache, handle.map .inFlight)

/-! ## Open documents -/

/-- Records the text of a document, and tells whether it is the text recorded before. -/
def recordDocument (cache : Cache α) (id : Identity) (document : Document) : Cache α × Bool :=
  let unchanged := (cache.documents.get? id).any fun previous => previous.text == document.text
  ({ cache with documents := cache.documents.insert id document }, unchanged)

/-- Tells the entry of a document that its text was recorded. A parse on its way is no longer
closed, and dirty if the text changed; an outcome of the same text stays good. In both cases there
is nothing to start. -/
def reviseEntry (cache : Cache α) (id : Identity) (unchanged : Bool) : Cache α × Option Handle :=
  match cache.entries.get? id with
  | some (.pending revision dirty _) =>
    let entry := .pending revision (dirty || !unchanged) false
    ({ cache with entries := cache.entries.insert id entry }, some ⟨id, revision, false⟩)
  | some (.ready revision _) => (cache, if unchanged then some ⟨id, revision, true⟩ else none)
  | none => (cache, none)

/-- Records the text of a document and sees to it that the text is parsed. -/
def updateDocument (cache : Cache α) (id : Identity) (document : Document) :
    Cache α × Except Error Handle :=
  let (cache, unchanged) := cache.recordDocument id document
  match cache.reviseEntry id unchanged with
  | (cache, some handle) => (cache, .ok handle)
  | (cache, none) => cache.requestParse id

/-- Forgets the text of a document. -/
def forgetDocument (cache : Cache α) (id : Identity) : Cache α :=
  { cache with documents := cache.documents.erase id }

/-- Drops the outcome of a closed document. A parse on its way keeps its entry until it ends, marked
as closed. -/
def evict (cache : Cache α) (id : Identity) : Cache α :=
  match cache.entries.get? id with
  | some (.pending revision _ _) =>
    { cache with entries := cache.entries.insert id (.pending revision false true) }
  | some (.ready _ _) => { cache with entries := cache.entries.erase id }
  | none => cache

/-- Closes a document; `evicting` is whether its outcome is dropped. -/
def closeDocument (cache : Cache α) (evicting : Bool) (id : Identity) : Cache α :=
  let cache := cache.forgetDocument id
  if evicting then cache.evict id else cache

/-! ## The end -/

/-- From now on no parse is started. -/
def stopAccepting (cache : Cache α) : Cache α := { cache with accepting := false }

/-- From now on no task gets a worker. -/
def stopAdmitting (cache : Cache α) : Cache α := { cache with admitting := false }

/-- Drops the entry of a file if a parse of it is on its way, and tells the task to stop. -/
def abandon (cache : Cache α) (id : Identity) : Cache α :=
  match cache.entries.get? id with
  | some (.pending revision _ _) =>
    { cache with
      entries := cache.entries.erase id
      tasks := cache.tasks.map fun task =>
        if task.revision = revision then { task with aborted := true } else task }
  | _ => cache

/-- Ends the work of the cache: nothing is started any more, and what is on its way is given up.
Outcomes stay. A second time nothing happens. -/
def shutdown (cache : Cache α) : Cache α :=
  if cache.accepting then
    let cache := cache.stopAccepting.stopAdmitting
    cache.entries.keys.foldl abandon cache
  else cache

end DiagnosticServer.Cache
