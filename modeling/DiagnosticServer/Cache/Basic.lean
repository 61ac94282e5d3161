import DiagnosticServer.Diagnostic
import DiagnosticServer.Parse.Adapter
import DiagnosticServer.Table

/-!
# The state of the parse cache

The cache knows, for each document, the text open in the editor and an entry: the outcome of its
latest parse, or the mark that a parse is on its way. Parses are tasks that go through stages, many
of them at once. Everything that happens is a sequence of small steps, by clients and by tasks, each
of which looks at and changes the state as a whole; the functions of the modules beside this one are
those steps.

Each parse has a revision of its own, larger than those of all parses before it.
-/

namespace DiagnosticServer

/-- What a server finds on its machine. -/
structure Host (α : Type) where
  /-- The files on the disk. -/
  files : FileSystem
  /-- The parser. -/
  parser : Parser α
  /-- The number of processors. -/
  processors : Nat

/-- What a session works with and does not change itself. -/
structure Environment (α : Type) extends Host α where
  /-- The options of the client. -/
  options : Options

/-- How many parses may run at once. -/
def Environment.workers {α : Type} (env : Environment α) : Nat := env.options.workers env.processors

/-- A document open in the editor. -/
structure Document where
  /-- The URI under which the client opened it. -/
  uri : Uri
  /-- Its text. -/
  text : String
deriving DecidableEq, Repr

/-- What the cache holds for a document. -/
inductive Entry (α : Type) where
  /-- A parse is on its way. It is dirty if the text has changed since, and closed if the document
  was closed meanwhile. -/
  | pending (revision : Nat) (dirty closed : Bool)
  /-- The outcome of the parse with that revision. -/
  | ready (revision : Nat) (outcome : Outcome α)

/-- How far a task has come. -/
inductive Stage (α : Type) where
  /-- It waits for a worker. -/
  | queued
  /-- It has a worker. -/
  | admitted
  /-- It has looked up the document that is open in the editor. -/
  | reading (document : Option Document)
  /-- The parser is running. -/
  | parsing (uri : Option Uri) (call : Call)
  /-- The parser has ended and the worker is free again. -/
  | parsed (uri : Option Uri) (outcome : Outcome α)
  /-- It has seen that the document was closed, and will drop its entry. -/
  | condemned
  /-- Its outcome is in the cache and will be announced. -/
  | installed (uri : Option Uri) (outcome : Outcome α)
  /-- Nobody waits for it any more, but its parser is still running. -/
  | orphaned (call : Call)

namespace Stage

variable {α : Type}

/-- Whether a task in this stage has a worker. -/
def hasWorker : Stage α → Bool
  | admitted | reading _ | parsing _ _ | orphaned _ => true
  | queued | parsed _ _ | condemned | installed _ _ => false

/-- Whether the parser is running. -/
def isRunning : Stage α → Bool
  | parsing _ _ | orphaned _ => true
  | _ => false

/-- Whether somebody may wait for a task in this stage. -/
def isAwaited : Stage α → Bool
  | orphaned _ => false
  | _ => true

end Stage

/-- A parse on its way. -/
structure Task (α : Type) where
  /-- The file being parsed. -/
  id : Identity
  /-- The revision of the parse. -/
  revision : Nat
  /-- How far it has come. -/
  stage : Stage α
  /-- Whether it was told to stop, which it does where it waits for something. -/
  aborted : Bool

/-- What can be seen from outside. -/
inductive Event (α : Type) where
  /-- The parser was started on a file. -/
  | called (id : Identity) (revision : Nat) (call : Call)
  /-- The client was told of an outcome. -/
  | announced (id : Identity) (revision : Nat) (uri : Option Uri) (outcome : Outcome α)
      (sent : List Notification)

/-- A stored outcome with the revision of its parse. -/
structure Snapshot (α : Type) where
  /-- The revision. -/
  revision : Nat
  /-- The outcome. -/
  outcome : Outcome α

/-- What a client holds that wants to hear of the end of a parse. -/
structure Handle where
  /-- The file being parsed. -/
  id : Identity
  /-- The revision of the parse. -/
  revision : Nat
  /-- Whether the parse had ended before the handle was given. -/
  complete : Bool
deriving DecidableEq, Repr

/-- What the holder of a handle hears. -/
inductive Progress where
  /-- The parse is on its way. -/
  | waiting
  /-- The task is done with its entry. -/
  | finished
  /-- The task was given up. -/
  | abandoned
deriving DecidableEq, Repr

/-- The state of the parse cache. -/
structure Cache (α : Type) where
  /-- What is held for each file. -/
  entries : Table Identity (Entry α)
  /-- The documents open in the editor. -/
  documents : Table Identity Document
  /-- The source roots known so far. -/
  roots : SourceRoots
  /-- The parses on their way, oldest first. -/
  tasks : List (Task α)
  /-- The revision of the youngest parse. -/
  lastRevision : Nat
  /-- The parses started so far with their revisions, oldest first. -/
  started : List (Identity × Nat)
  /-- Whether parses may be started. -/
  accepting : Bool
  /-- Whether tasks may get a worker. -/
  admitting : Bool
  /-- The revisions of the tasks that are done with their entries. -/
  finished : List Nat
  /-- What could be seen so far, in order. -/
  history : List (Event α)

namespace Cache

variable {α : Type}

/-- The cache at the start. -/
def empty : Cache α where
  entries := Table.empty
  documents := Table.empty
  roots := []
  tasks := []
  lastRevision := 0
  started := []
  accepting := true
  admitting := true
  finished := []
  history := []

/-- Whether a document is open in the editor. -/
def isOpen (cache : Cache α) (id : Identity) : Bool := cache.documents.contains id

/-- Whether a parse of a file is on its way. -/
def isInFlight (cache : Cache α) (id : Identity) : Bool :=
  match cache.entries.get? id with
  | some (.pending _ _ _) => true
  | _ => false

/-- The outcome that is held for a file. -/
def cached? (cache : Cache α) (id : Identity) : Option (Snapshot α) :=
  match cache.entries.get? id with
  | some (.ready revision outcome) => some ⟨revision, outcome⟩
  | _ => none

/-- The number of files for which something is held. -/
def size (cache : Cache α) : Nat := cache.entries.size

/-- The number of workers that are taken. -/
def busy (cache : Cache α) : Nat := (cache.tasks.filter fun task => task.stage.hasWorker).length

/-- What the holder of a handle hears now. -/
def progress (cache : Cache α) (handle : Handle) : Progress :=
  if handle.complete || cache.finished.contains handle.revision then .finished
  else if cache.tasks.any fun task => task.revision == handle.revision && task.stage.isAwaited then
    .waiting
  else .abandoned

end Cache

end DiagnosticServer
