import DiagnosticServer.Engine

/-!
# The cache at work

A world is the cache together with what goes on around it: the files on the disk, which anyone may
change at any time, and the calls that clients have begun and not ended. A call that touches several
tables does so one at a time, so between two of its steps anything else may happen. A run is any
sequence of such steps by clients, tasks and the disk, together with the worlds it went through.

`World.follow_update`, `World.follow_close` and `World.follow_shutdown` show that the calls of a
session are made of these steps, so what holds of every run holds of every session.
-/

namespace DiagnosticServer

variable {α : Type}

/-- What a call that has begun has still to do. -/
inductive Remainder where
  /-- The text of a document was recorded, and its entry is to be told. -/
  | revise (id : Identity) (unchanged : Bool)
  /-- The entry had no use for the text, and a parse is to be asked for. -/
  | request (id : Identity)
  /-- The text of a document was forgotten, and its outcome is to be dropped. -/
  | evict (id : Identity)
  /-- No parse is started any more, and no task is to get a worker either. -/
  | stopAdmitting
  /-- The parses of these files are to be given up. -/
  | abandon (left : List Identity)
deriving DecidableEq

/-- The file whose text a call has recorded or forgotten. -/
def Remainder.file? : Remainder → Option Identity
  | revise id _ | request id | evict id => some id
  | stopAdmitting | abandon _ => none

/-- The steps of a task. -/
inductive Move where
  | assignWorker
  | refuse
  | readDocument
  | launch
  | complete
  | store
  | discard
  | publish
  | stop
deriving DecidableEq

/-- What a step of a task makes of the cache. -/
def Move.apply (env : Environment α) (cache : Cache α) (task : Task α) : Move → Option (Cache α)
  | assignWorker => cache.assignWorker env.workers task
  | refuse => cache.refuse task
  | readDocument => cache.readDocument task
  | launch => cache.launch env task
  | complete => cache.complete env task
  | store => cache.store task
  | discard => cache.discard task
  | publish => cache.publish env task
  | stop => cache.stop task

/-- One step of a run. -/
inductive Action where
  /-- The files on the disk change. -/
  | edit (files : FileSystem)
  /-- A client begins to record the text of a document. -/
  | update (id : Identity) (document : Document)
  /-- A client begins to close a document. -/
  | close (id : Identity)
  /-- A client asks for a parse of a file. -/
  | request (id : Identity)
  /-- A client looks a file up. -/
  | look (id : Identity)
  /-- A client begins to end the work of the cache. -/
  | shutdown
  /-- A call that has begun takes its next step. -/
  | proceed (call : Remainder)
  /-- The end of the work comes to one of the files that are left. -/
  | sweep (left : List Identity) (id : Identity)
  /-- The task of that revision takes a step. -/
  | move (revision : Nat) (move : Move)

/-- Whether a call begins here that takes more than one step. -/
def Action.begins : Action → Bool
  | update _ _ | close _ | shutdown => true
  | edit _ | request _ | look _ | proceed _ | sweep _ _ | move _ _ => false

/-- The environment with other files on the disk. -/
def Environment.on (env : Environment α) (files : FileSystem) : Environment α :=
  { env with files := files }

/-- The cache and what goes on around it. -/
structure World (α : Type) where
  /-- The cache. -/
  cache : Cache α
  /-- The files on the disk. -/
  files : FileSystem
  /-- What the calls that have begun have still to do. -/
  calls : List Remainder

namespace World

/-- The world at the start. -/
def initial (files : FileSystem) : World α := ⟨Cache.empty, files, []⟩

/-- The world with another cache. -/
def withCache (world : World α) (cache : Cache α) : World α := { world with cache := cache }

/-- The world in which a call has begun: it has turned the cache into `cache` and has `rest` still
to do. -/
def begun (world : World α) (rest : Remainder) (cache : Cache α) : World α :=
  { world with cache := cache, calls := rest :: world.calls }

/-- The world in which a call is over, having turned the cache into `cache`. -/
def finish (world : World α) (call : Remainder) (cache : Cache α) : World α :=
  { world with cache := cache, calls := world.calls.erase call }

/-- The world in which a call has turned the cache into `cache` and has `rest` still to do. -/
def goOn (world : World α) (call rest : Remainder) (cache : Cache α) : World α :=
  (world.finish call cache).begun rest cache

/-- The next step of a call that has begun. -/
def proceed (world : World α) (call : Remainder) : Option (World α) :=
  match call with
  | .revise id unchanged =>
    match world.cache.reviseEntry id unchanged with
    | (cache, some _) => some (world.finish call cache)
    | (cache, none) => some (world.goOn call (.request id) cache)
  | .request id => some (world.finish call (world.cache.requestParse id).1)
  | .evict id => some (world.finish call (world.cache.evict id))
  | .stopAdmitting =>
    let cache := world.cache.stopAdmitting
    some (world.goOn call (.abandon cache.entries.keys) cache)
  | .abandon [] => some (world.finish call world.cache)
  | .abandon (_ :: _) => none

/-- What a step makes of the world, if it can be taken. -/
def step (env : Environment α) (world : World α) : Action → Option (World α)
  | .edit files => some { world with files := files }
  | .update id document =>
    some (world.begun (.revise id (world.cache.recordDocument id document).2)
      (world.cache.recordDocument id document).1)
  | .close id =>
    if env.options.evictOnClose then some (world.begun (.evict id) (world.cache.forgetDocument id))
    else some (world.withCache (world.cache.forgetDocument id))
  | .request id => some (world.withCache (world.cache.requestParse id).1)
  | .look id => some (world.withCache (world.cache.lookup id).1)
  | .shutdown =>
    if world.cache.accepting then some (world.begun .stopAdmitting world.cache.stopAccepting)
    else some world
  | .proceed call => if call ∈ world.calls then world.proceed call else none
  | .sweep left id =>
    if .abandon left ∈ world.calls ∧ id ∈ left then
      some (world.goOn (.abandon left) (.abandon (left.erase id)) (world.cache.abandon id))
    else none
  | .move revision move =>
    match world.cache.tasks.find? fun task => task.revision = revision with
    | none => none
    | some task => (move.apply (env.on world.files) world.cache task).map world.withCache

@[simp]
theorem begun_calls (world : World α) (rest : Remainder) (cache : Cache α) :
    (world.begun rest cache).calls = rest :: world.calls := rfl

/-- A call that has just begun and is over at once leaves nothing but its cache. -/
@[simp]
theorem finish_begun (world : World α) (call : Remainder) (first last : Cache α) :
    (world.begun call first).finish call last = world.withCache last := by
  simp [finish, begun, withCache]

/-- A call that has just begun goes on as if it had begun with what is left of it. -/
@[simp]
theorem goOn_begun (world : World α) (call rest : Remainder) (first last : Cache α) :
    (world.begun call first).goOn call rest last = world.begun rest last := by
  simp [goOn, finish, begun]

/-- A call that has just begun can take its next step. -/
theorem step_begun (env : Environment α) (world : World α) (call : Remainder) (cache : Cache α) :
    (world.begun call cache).step env (.proceed call) = (world.begun call cache).proceed call := by
  rw [step, if_pos]
  exact List.mem_cons_self

/-- An update is over if the entry has a handle to give. -/
theorem proceed_revise_some {world : World α} {id : Identity} {unchanged : Bool} {cache : Cache α}
    {handle : Handle} (revised : world.cache.reviseEntry id unchanged = (cache, some handle)) :
    world.proceed (.revise id unchanged) = some (world.finish (.revise id unchanged) cache) := by
  simp only [proceed, revised]

/-- Otherwise it has to ask for a parse. -/
theorem proceed_revise_none {world : World α} {id : Identity} {unchanged : Bool} {cache : Cache α}
    (revised : world.cache.reviseEntry id unchanged = (cache, none)) :
    world.proceed (.revise id unchanged) =
      some (world.goOn (.revise id unchanged) (.request id) cache) := by
  simp only [proceed, revised]

/-- The world after a list of actions, and the steps taken on the way with those of `trail` before
them, latest first; nothing, if an action cannot be taken. -/
def follow (env : Environment α) (world : World α) (trail : List (World α × Action)) :
    List Action → Option (World α × List (World α × Action))
  | [] => some (world, trail)
  | action :: rest =>
    match world.step env action with
    | some next => next.follow env ((world, action) :: trail) rest
    | none => none

/-- The first action is taken before the others. -/
theorem follow_cons {env : Environment α} {world next : World α} {action : Action}
    (taken : world.step env action = some next) (trail : List (World α × Action))
    (rest : List Action) :
    world.follow env trail (action :: rest) = next.follow env ((world, action) :: trail) rest := by
  rw [follow, taken]

/-! ## The calls of clients are made of steps -/

/-- Recording a text, telling the entry, and asking for a parse if need be, make an update. -/
theorem follow_update (env : Environment α) (world : World α) (trail : List (World α × Action))
    (id : Identity) (document : Document) :
    ∃ actions after, world.follow env trail actions =
      some (world.withCache (world.cache.updateDocument id document).1, after) := by
  -- The call records the text, and then does what is left of it with nothing in between.
  have recorded : world.step env (.update id document) = some (world.begun _ _) := rfl
  unfold Cache.updateDocument
  generalize world.cache.recordDocument id document = record at recorded ⊢
  obtain ⟨first, unchanged⟩ := record
  dsimp only at recorded ⊢
  generalize hv : first.reviseEntry id unchanged = revised
  obtain ⟨second, _ | handle⟩ := revised
  · have told : (world.begun (.revise id unchanged) first).step env
        (.proceed (.revise id unchanged)) = some (world.begun (.request id) second) := by
      rw [step_begun, proceed_revise_none hv, goOn_begun]
    have asked : (world.begun (.request id) second).step env (.proceed (.request id)) =
        some (world.withCache (second.requestParse id).1) := by
      rw [step_begun, proceed, finish_begun]
      rfl
    exact ⟨[.update id document, .proceed (.revise id unchanged), .proceed (.request id)], _,
      (follow_cons recorded ..).trans ((follow_cons told ..).trans (follow_cons asked ..))⟩
  · have told : (world.begun (.revise id unchanged) first).step env
        (.proceed (.revise id unchanged)) = some (world.withCache second) := by
      rw [step_begun, proceed_revise_some hv, finish_begun]
    exact ⟨[.update id document, .proceed (.revise id unchanged)], _,
      (follow_cons recorded ..).trans (follow_cons told ..)⟩

/-- Forgetting a text, and dropping its outcome if that is wanted, close a document. -/
theorem follow_close (env : Environment α) (world : World α) (trail : List (World α × Action))
    (id : Identity) :
    ∃ actions after, world.follow env trail actions =
      some (world.withCache (world.cache.closeDocument env.options.evictOnClose id), after) := by
  unfold Cache.closeDocument
  by_cases evicting : env.options.evictOnClose = true
  · have forgotten : world.step env (.close id) =
        some (world.begun (.evict id) (world.cache.forgetDocument id)) := if_pos evicting
    have evicted : (world.begun (.evict id) (world.cache.forgetDocument id)).step env
        (.proceed (.evict id)) =
          some (world.withCache ((world.cache.forgetDocument id).evict id)) := by
      rw [step_begun, proceed, finish_begun]
      rfl
    rw [if_pos evicting]
    exact ⟨[.close id, .proceed (.evict id)], _,
      (follow_cons forgotten ..).trans (follow_cons evicted ..)⟩
  · have forgotten : world.step env (.close id) =
        some (world.withCache (world.cache.forgetDocument id)) := if_neg evicting
    rw [if_neg evicting]
    exact ⟨[.close id], _, follow_cons forgotten ..⟩

/-- The end of the work can go through the files that are left in their order. -/
theorem follow_sweep (env : Environment α) (world : World α) (left : List Identity)
    (cache : Cache α) (trail : List (World α × Action)) :
    ∃ actions after, (world.begun (.abandon left) cache).follow env trail actions =
      some (world.withCache (left.foldl Cache.abandon cache), after) := by
  -- Any order will do for a run; this is the one in which the cache goes through its entries.
  induction left generalizing cache trail with
  | nil =>
    have ended : (world.begun (.abandon []) cache).step env (.proceed (.abandon [])) =
        some (world.withCache cache) := by
      rw [step_begun, proceed, finish_begun]
      rfl
    exact ⟨[.proceed (.abandon [])], _, follow_cons ended ..⟩
  | cons id rest ih =>
    have swept : (world.begun (.abandon (id :: rest)) cache).step env (.sweep (id :: rest) id) =
        some (world.begun (.abandon rest) (cache.abandon id)) := by
      rw [step, if_pos ⟨List.mem_cons_self, List.mem_cons_self⟩, goOn_begun, List.erase_cons_head]
      rfl
    obtain ⟨actions, after, followed⟩ := ih (cache.abandon id) (_ :: trail)
    refine ⟨.sweep (id :: rest) id :: actions, after, ?_⟩
    rw [follow_cons swept, followed, List.foldl_cons]

/-- Starting nothing any more, admitting nothing any more, and giving up what is on its way, end the
work. -/
theorem follow_shutdown (env : Environment α) (world : World α)
    (trail : List (World α × Action)) :
    ∃ actions after, world.follow env trail actions =
      some (world.withCache world.cache.shutdown, after) := by
  unfold Cache.shutdown
  by_cases accepting : world.cache.accepting = true
  · -- The files that are left are those that have an entry once no task gets a worker any more.
    have deaf : world.step env .shutdown =
        some (world.begun .stopAdmitting world.cache.stopAccepting) := if_pos accepting
    have closed : (world.begun .stopAdmitting world.cache.stopAccepting).step env
        (.proceed .stopAdmitting) = some (world.begun
          (.abandon world.cache.stopAccepting.stopAdmitting.entries.keys)
          world.cache.stopAccepting.stopAdmitting) := by
      rw [step_begun, proceed, goOn_begun]
      rfl
    obtain ⟨actions, after, followed⟩ := follow_sweep env world
      world.cache.stopAccepting.stopAdmitting.entries.keys world.cache.stopAccepting.stopAdmitting
      (_ :: _ :: trail)
    refine ⟨.shutdown :: .proceed .stopAdmitting :: actions, after, ?_⟩
    rw [follow_cons deaf, follow_cons closed, followed, if_pos accepting]
  · refine ⟨[], trail, ?_⟩
    rw [if_neg accepting]
    rfl

end World

/-- A run: the world it has come to, and the steps taken with the worlds they were taken in, latest
first. -/
inductive Run (env : Environment α) : World α → List (World α × Action) → Prop where
  /-- Nothing has happened yet. -/
  | start (files : FileSystem) : Run env (World.initial files) []
  /-- One more step was taken. -/
  | step {world next : World α} {trail : List (World α × Action)} (run : Run env world trail)
      (action : Action) (taken : world.step env action = some next) :
      Run env next ((world, action) :: trail)

/-- Whether no call begins while another one is half done. Requests and look-ups are one step each,
and may be made at any time. -/
def Serial (trail : List (World α × Action)) : Prop :=
  ∀ moment ∈ trail, moment.2.begins = true → moment.1.calls = []

instance (trail : List (World α × Action)) : Decidable (Serial trail) :=
  inferInstanceAs (Decidable (∀ moment ∈ trail, moment.2.begins = true → moment.1.calls = []))

namespace Run

variable {env : Environment α} {world : World α} {trail : List (World α × Action)}

/-- Every world that a run has been through was itself reached by a run, whose steps are among those
of the whole. -/
theorem past (run : Run env world trail) {moment : World α × Action} (member : moment ∈ trail) :
    ∃ before, Run env moment.1 before ∧ before ⊆ trail := by
  induction run with
  | start files => cases member
  | step run action taken ih =>
    rcases List.mem_cons.mp member with rfl | member
    · exact ⟨_, run, List.subset_cons_self _ _⟩
    · obtain ⟨before, earlier, within⟩ := ih member
      exact ⟨before, earlier, List.subset_cons_of_subset _ within⟩

/-- Actions that can be taken one after the other make a run. -/
theorem follow (run : Run env world trail) (actions : List Action) {next : World α}
    {steps : List (World α × Action)}
    (followed : world.follow env trail actions = some (next, steps)) : Run env next steps := by
  induction actions generalizing world trail with
  | nil =>
    cases followed
    exact run
  | cons action rest ih =>
    rw [World.follow] at followed
    split at followed
    · rename_i after taken
      exact ih (run.step action taken) followed
    · cases followed

end Run

/-! ## A small world

An environment for runs that are written down: an empty disk, and a parser that accepts one text and
gives a reason against every other. -/

namespace Trial

/-- The environment with that many workers. -/
def env (workers : Nat) : Environment Unit where
  files := FileSystem.empty [] rfl
  parser := fun _ text _ =>
    if text = "sound" then .accepted () [] else .rejected [Problem.unlocated "unsound"]
  processors := workers
  options := {}

/-- A file. -/
def file : Identity := ⟨⟨"/A"⟩⟩

/-- Another file. -/
def otherFile : Identity := ⟨⟨"/B"⟩⟩

/-- A document with that text. -/
def document (text : String) : Document := ⟨⟨"file:///A", "file", "/A"⟩, text⟩

/-- The run that has not begun. -/
theorem start (workers : Nat) : Run (env workers) (World.initial (env workers).files) [] :=
  .start _

end Trial

end DiagnosticServer
