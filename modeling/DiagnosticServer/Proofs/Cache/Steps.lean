import Mathlib.Tactic.SplitIfs
import Mathlib.Logic.Basic
import DiagnosticServer.Proofs.Cache.World

/-!
# What a step can do

Every step of a run turns the cache into another one in one of a few ways. `TaskStep` lists the ways
of tasks and `ClientStep` those of clients, each with what must hold for it. The invariants of runs
are shown by going through these lists and never through the definitions of the steps.
-/

namespace DiagnosticServer

variable {α : Type}

namespace Cache

/-- The ways in which a step of a task changes the cache. -/
inductive TaskStep (env : Environment α) (cache : Cache α) (task : Task α) :
    Move → Cache α → Prop where
  /-- It gets a worker that is free. -/
  | admitted (stage : task.stage = .queued) (admitting : cache.admitting = true)
      (free : cache.busy < env.workers) :
      TaskStep env cache task .assignWorker (cache.moveTask task.revision .admitted)
  /-- It gives up, since nobody gets a worker any more. -/
  | refused (stage : task.stage = .queued) (admitting : cache.admitting = false) :
      TaskStep env cache task .refuse
        ((cache.discardPending task.id task.revision).dropTask task.revision)
  /-- It looks its document up. -/
  | read (stage : task.stage = .admitted) :
      TaskStep env cache task .readDocument
        (cache.moveTask task.revision (.reading (cache.documents.get? task.id)))
  /-- It cannot read its file, and that is its outcome. -/
  | unreadable {document : Option Document} {outcome : Outcome α}
      (stage : task.stage = .reading document)
      (prepared : Parse.prepare env.files cache.roots task.id (document.map Document.text) =
        .error outcome) :
      TaskStep env cache task .launch
        (cache.moveTask task.revision (.parsed (document.map Document.uri) outcome))
  /-- It starts the parser. -/
  | launched {document : Option Document} {call : Call} (stage : task.stage = .reading document)
      (prepared : Parse.prepare env.files cache.roots task.id (document.map Document.text) =
        (.ok call : Except (Outcome α) Call)) :
      TaskStep env cache task .launch
        ((cache.moveTask task.revision (.parsing (document.map Document.uri) call)).report
          (.called task.id task.revision call))
  /-- Its parser ends. -/
  | completed {uri : Option Uri} {call : Call} (roots : SourceRoots)
      (stage : task.stage = .parsing uri call) :
      TaskStep env cache task .complete
        ({ cache with roots := roots }.moveTask task.revision
          (.parsed uri (Parse.run env.parser task.id call)))
  /-- Its parser ends, and nobody waits for it. -/
  | lost {call : Call} (roots : SourceRoots) (stage : task.stage = .orphaned call) :
      TaskStep env cache task .complete ({ cache with roots := roots }.dropTask task.revision)
  /-- It finds that the entry is not its own. -/
  | rejected {uri : Option Uri} {outcome : Outcome α} (stage : task.stage = .parsed uri outcome)
      (foreign : ∀ dirty closed,
        cache.entries.get? task.id ≠ some (.pending task.revision dirty closed)) :
      TaskStep env cache task .store (cache.retire task)
  /-- It finds that the document was closed. -/
  | condemned {uri : Option Uri} {outcome : Outcome α} {dirty : Bool}
      (stage : task.stage = .parsed uri outcome)
      (entry : cache.entries.get? task.id = some (.pending task.revision dirty true)) :
      TaskStep env cache task .store (cache.moveTask task.revision .condemned)
  /-- It finds that the text has changed, and another parse takes its place. -/
  | superseded {uri : Option Uri} {outcome : Outcome α} (stage : task.stage = .parsed uri outcome)
      (entry : cache.entries.get? task.id = some (.pending task.revision true false))
      (accepting : cache.accepting = true) :
      TaskStep env cache task .store ((cache.schedule task.id).retire task)
  /-- It stores its outcome: in place of its own mark, though the text has changed if no parse can
  be started any more, or in place of an older outcome. -/
  | installed {uri : Option Uri} {outcome : Outcome α} (stage : task.stage = .parsed uri outcome)
      (entry : (∃ dirty, cache.entries.get? task.id = some (.pending task.revision dirty false) ∧
          (dirty = true → cache.accepting = false)) ∨
        ∃ older held, cache.entries.get? task.id = some (.ready older held) ∧
          older < task.revision) :
      TaskStep env cache task .store (cache.install task uri outcome)
  /-- It drops the entry of a closed document. -/
  | discarded (stage : task.stage = .condemned) :
      TaskStep env cache task .discard
        ((cache.discardPending task.id task.revision).retire task)
  /-- It tells the client of its outcome. -/
  | published {uri : Option Uri} {outcome : Outcome α}
      (stage : task.stage = .installed uri outcome) :
      TaskStep env cache task .publish
        ((cache.report (.announced task.id task.revision uri outcome
          (Notification.announce env.files env.options task.id uri outcome))).dropTask
            task.revision)
  /-- It stops where it waits. -/
  | stopped (aborted : task.aborted = true)
      (stage : task.stage = .queued ∨ ∃ uri outcome, task.stage = .parsed uri outcome) :
      TaskStep env cache task .stop (cache.dropTask task.revision)
  /-- It stops and leaves its parser behind. -/
  | orphaned {uri : Option Uri} {call : Call} (aborted : task.aborted = true)
      (stage : task.stage = .parsing uri call) :
      TaskStep env cache task .stop (cache.moveTask task.revision (.orphaned call))

/-- The ways in which a step of a client changes the cache while `calls` are half done. -/
inductive ClientStep (calls : List Remainder) (cache : Cache α) : Cache α → Prop where
  /-- Not at all. -/
  | idle : ClientStep calls cache cache
  /-- The open documents change. -/
  | documents (documents : Table Identity Document) :
      ClientStep calls cache { cache with documents := documents }
  /-- A parse is started for a file of which none is on its way. -/
  | scheduled (id : Identity) (accepting : cache.accepting = true)
      (free : ∀ revision dirty closed,
        cache.entries.get? id ≠ some (.pending revision dirty closed)) :
      ClientStep calls cache (cache.schedule id)
  /-- The mark of a parse is changed. -/
  | marked {id : Identity} {revision : Nat} {dirty closed : Bool} (dirty' closed' : Bool)
      (entry : cache.entries.get? id = some (.pending revision dirty closed)) :
      ClientStep calls cache
        { cache with entries := cache.entries.insert id (.pending revision dirty' closed') }
  /-- An outcome is dropped. -/
  | evicted {id : Identity} {revision : Nat} {outcome : Outcome α}
      (entry : cache.entries.get? id = some (.ready revision outcome)) :
      ClientStep calls cache { cache with entries := cache.entries.erase id }
  /-- From now on no parse is started. -/
  | stopAccepting : ClientStep calls cache cache.stopAccepting
  /-- From now on no task gets a worker. -/
  | stopAdmitting (ending : .stopAdmitting ∈ calls) : ClientStep calls cache cache.stopAdmitting
  /-- A parse is given up. -/
  | abandoned {left : List Identity} {id : Identity} {revision : Nat} {dirty closed : Bool}
      (ending : .abandon left ∈ calls)
      (entry : cache.entries.get? id = some (.pending revision dirty closed)) :
      ClientStep calls cache
        { cache with
          entries := cache.entries.erase id
          tasks := cache.tasks.map fun task =>
            if task.revision = revision then { task with aborted := true } else task }

/-! ## The parts of steps -/

/-- Dropping a task leaves the others. -/
theorem mem_dropTask {cache : Cache α} {revision : Nat} {task : Task α} :
    task ∈ (cache.dropTask revision).tasks ↔ task ∈ cache.tasks ∧ task.revision ≠ revision := by
  simp [dropTask]

/-- Starting a parse of a file puts its mark there and leaves the other entries. -/
theorem get?_schedule (cache : Cache α) (id other : Identity) :
    (cache.schedule id).entries.get? other =
      if other = id then some (.pending (cache.lastRevision + 1) false false)
      else cache.entries.get? other :=
  Table.get?_insert ..

/-- Storing an outcome puts it there and leaves the other entries. -/
theorem get?_install (cache : Cache α) (task : Task α) (uri : Option Uri) (outcome : Outcome α)
    (id : Identity) :
    (cache.install task uri outcome).entries.get? id =
      if id = task.id then some (.ready task.revision outcome) else cache.entries.get? id :=
  Table.get?_insert ..

/-- Recording a text opens its document and leaves the others. -/
theorem get?_recordDocument (cache : Cache α) (id other : Identity) (document : Document) :
    (cache.recordDocument id document).1.documents.get? other =
      if other = id then some document else cache.documents.get? other :=
  Table.get?_insert ..

/-- Forgetting a text closes its document and leaves the others. -/
theorem get?_forgetDocument (cache : Cache α) (id other : Identity) :
    (cache.forgetDocument id).documents.get? other =
      if other = id then none else cache.documents.get? other :=
  Table.get?_erase ..

/-- An outcome is at hand where the entry is one. -/
theorem cached?_eq_some {cache : Cache α} {id : Identity} {snapshot : Snapshot α} :
    cache.cached? id = some snapshot ↔
      cache.entries.get? id = some (.ready snapshot.revision snapshot.outcome) := by
  unfold cached?
  constructor
  · intro held
    split at held
    · rename_i revision outcome entry
      cases held
      exact entry
    · cases held
  · intro entry
    rw [entry]

/-- A parse of a file is on its way where its entry is the mark of one. -/
theorem isInFlight_iff {cache : Cache α} {id : Identity} :
    cache.isInFlight id = true ↔
      ∃ revision dirty closed, cache.entries.get? id = some (.pending revision dirty closed) := by
  unfold isInFlight
  constructor
  · intro found
    split at found
    · exact ⟨_, _, _, ‹_›⟩
    · cases found
  · rintro ⟨revision, dirty, closed, entry⟩
    rw [entry]

/-- Where nothing is held, no parse is on its way. -/
theorem free_of_none {cache : Cache α} {id : Identity} (entry : cache.entries.get? id = none)
    (revision : Nat) (dirty closed : Bool) :
    cache.entries.get? id ≠ some (.pending revision dirty closed) := by
  rw [entry]
  exact nofun

/-- Where an outcome is held, no parse is on its way. -/
theorem free_of_ready {cache : Cache α} {id : Identity} {older : Nat} {outcome : Outcome α}
    (entry : cache.entries.get? id = some (.ready older outcome)) (revision : Nat)
    (dirty closed : Bool) : cache.entries.get? id ≠ some (.pending revision dirty closed) := by
  rw [entry]
  exact nofun

/-- A task that finds its mark drops it. -/
theorem discardPending_of_mark {cache : Cache α} {id : Identity} {revision : Nat}
    {dirty closed : Bool}
    (entry : cache.entries.get? id = some (.pending revision dirty closed)) :
    cache.discardPending id revision = { cache with entries := cache.entries.erase id } := by
  simp only [discardPending, entry, if_pos]

/-- A task that does not find its mark drops nothing. -/
theorem discardPending_of_no_mark {cache : Cache α} {id : Identity} {revision : Nat}
    (free : ∀ dirty closed, cache.entries.get? id ≠ some (.pending revision dirty closed)) :
    cache.discardPending id revision = cache := by
  unfold discardPending
  split
  · rename_i current dirty closed entry
    rw [if_neg]
    rintro rfl
    exact free dirty closed entry
  · rfl

/-- Whether a task finds its mark or not, only entries change. -/
theorem discardPending_eq (cache : Cache α) (id : Identity) (revision : Nat) :
    ∃ entries, cache.discardPending id revision = { cache with entries := entries } := by
  by_cases own : ∃ dirty closed, cache.entries.get? id = some (.pending revision dirty closed)
  · obtain ⟨dirty, closed, entry⟩ := own
    exact ⟨_, discardPending_of_mark entry⟩
  · exact ⟨_, discardPending_of_no_mark fun dirty closed entry => own ⟨dirty, closed, entry⟩⟩

/-- Dropping a mark changes nothing, or what is there was dropped. -/
theorem get?_discardPending_cases (cache : Cache α) (id other : Identity) (revision : Nat) :
    (cache.discardPending id revision).entries.get? other = cache.entries.get? other ∨
      other = id ∧ (cache.discardPending id revision).entries.get? other = none := by
  by_cases own : ∃ dirty closed, cache.entries.get? id = some (.pending revision dirty closed)
  · obtain ⟨dirty, closed, entry⟩ := own
    rw [discardPending_of_mark entry, Table.get?_erase]
    split_ifs with same
    · exact .inr ⟨same, rfl⟩
    · exact .inl rfl
  · rw [discardPending_of_no_mark fun dirty closed entry => own ⟨dirty, closed, entry⟩]
    exact .inl rfl

/-- What is there after a task has dropped its mark was there before. -/
theorem get?_of_discardPending {cache : Cache α} {id other : Identity} {revision : Nat}
    {held : Entry α} (entry : (cache.discardPending id revision).entries.get? other = some held) :
    cache.entries.get? other = some held := by
  rcases cache.get?_discardPending_cases id other revision with same | ⟨-, gone⟩
  · rwa [same] at entry
  · rw [gone] at entry
    cases entry

/-- A look-up finds an outcome where one is held. -/
theorem lookup_of_ready {cache : Cache α} {id : Identity} {revision : Nat} {outcome : Outcome α}
    (entry : cache.entries.get? id = some (.ready revision outcome)) :
    cache.lookup id = (cache, .ok (.ready ⟨revision, outcome⟩)) := by
  simp only [lookup, entry]

/-- It finds the parse that is on its way. -/
theorem lookup_of_mark {cache : Cache α} {id : Identity} {revision : Nat} {dirty closed : Bool}
    (entry : cache.entries.get? id = some (.pending revision dirty closed)) :
    cache.lookup id = (cache, .ok (.inFlight ⟨id, revision, false⟩)) := by
  simp only [lookup, entry]

/-- It starts a parse where nothing is held. -/
theorem lookup_of_accepting_none {cache : Cache α} {id : Identity}
    (accepting : cache.accepting = true) (entry : cache.entries.get? id = none) :
    cache.lookup id =
      (cache.schedule id, .ok (.inFlight ⟨id, cache.lastRevision + 1, false⟩)) := by
  simp only [lookup, entry, start, accepting, if_true]
  rfl

/-- It fails where nothing is held and no parse may be started. -/
theorem lookup_of_refusing_none {cache : Cache α} {id : Identity}
    (refusing : cache.accepting = false) (entry : cache.entries.get? id = none) :
    cache.lookup id = (cache, .error .schedulerShutdown) := by
  simp only [lookup, entry, start, refusing]
  rfl

/-! ## Every step is one of these -/

section

variable {env : Environment α} {cache next : Cache α} {task : Task α} {move : Move}
  {calls : List Remainder}

/-- What storing an outcome can do. -/
theorem TaskStep.of_store (taken : cache.store task = some next) :
    TaskStep env cache task .store next := by
  unfold store at taken
  split at taken
  · rename_i uri outcome stage
    split at taken
    · -- The entry is gone.
      rename_i entry
      cases taken
      exact .rejected stage (free_of_none entry _)
    · rename_i revision dirty closed entry
      split_ifs at taken with foreign hclosed hdirty
      · -- The entry is the mark of another parse.
        cases taken
        refine .rejected stage fun dirty' closed' own => foreign ?_
        rw [entry] at own
        cases own
        rfl
      · cases taken
        rw [not_not.mp foreign, hclosed] at entry
        exact .condemned stage entry
      · -- The text has changed; what happens depends on whether a parse can be started.
        rw [not_not.mp foreign, hdirty, Bool.eq_false_iff.mpr hclosed] at entry
        by_cases accepting : cache.accepting = true
        · rw [start, if_pos accepting] at taken
          cases taken
          exact .superseded stage entry accepting
        · rw [start, if_neg accepting] at taken
          cases taken
          exact .installed stage (.inl ⟨_, entry, fun _ => by simpa using accepting⟩)
      · cases taken
        rw [not_not.mp foreign, Bool.eq_false_iff.mpr hclosed] at entry
        exact .installed stage (.inl ⟨_, entry, fun h => absurd h hdirty⟩)
    · rename_i older held entry
      split_ifs at taken with hold
      · cases taken
        exact .installed stage (.inr ⟨_, _, entry, hold⟩)
      · cases taken
        exact .rejected stage (free_of_ready entry _)
  · cases taken

/-- What stopping can do. -/
theorem TaskStep.of_stop (taken : cache.stop task = some next) :
    TaskStep env cache task .stop next := by
  unfold stop at taken
  split_ifs at taken with aborted
  split at taken
  · cases taken
    exact .stopped aborted (.inl ‹_›)
  · cases taken
    exact .stopped aborted (.inr ⟨_, _, ‹_›⟩)
  · cases taken
    exact .orphaned aborted ‹_›
  · cases taken

/-- What starting the parser can do. -/
theorem TaskStep.of_launch (taken : cache.launch env task = some next) :
    TaskStep env cache task .launch next := by
  unfold launch at taken
  split at taken
  · rename_i document stage
    dsimp only at taken
    split at taken
    · cases taken
      exact .unreadable stage ‹_›
    · cases taken
      exact .launched stage ‹_›
  · cases taken

/-- What the end of the parser can do. -/
theorem TaskStep.of_complete (taken : cache.complete env task = some next) :
    TaskStep env cache task .complete next := by
  unfold complete at taken
  dsimp only at taken
  split at taken
  · cases taken
    exact .completed _ ‹_›
  · cases taken
    exact .lost _ ‹_›
  · cases taken

/-- Every step of a task is one of those listed. -/
theorem TaskStep.of_apply (taken : move.apply env cache task = some next) :
    TaskStep env cache task move next := by
  cases move with
  | assignWorker =>
    simp only [Move.apply, assignWorker] at taken
    split at taken
    · split_ifs at taken with free
      rw [Bool.and_eq_true, decide_eq_true_eq] at free
      cases taken
      exact .admitted ‹_› free.1 free.2
    · cases taken
  | refuse =>
    simp only [Move.apply, refuse] at taken
    split at taken
    · split_ifs at taken with admitting
      cases taken
      exact .refused ‹_› (by simpa using admitting)
    · cases taken
  | readDocument =>
    simp only [Move.apply, readDocument] at taken
    split at taken
    · cases taken
      exact .read ‹_›
    · cases taken
  | launch => exact .of_launch taken
  | complete => exact .of_complete taken
  | store => exact .of_store taken
  | discard =>
    simp only [Move.apply, discard] at taken
    split at taken
    · cases taken
      exact .discarded ‹_›
    · cases taken
  | publish =>
    simp only [Move.apply, publish] at taken
    split at taken
    · cases taken
      exact .published ‹_›
    · cases taken
  | stop => exact .of_stop taken

/-- No task opens or closes a document, or has a say in whether parses are started and tasks get
workers. -/
theorem TaskStep.frame (taken : TaskStep env cache task move next) :
    next.documents = cache.documents ∧ next.accepting = cache.accepting ∧
      next.admitting = cache.admitting := by
  cases taken with
  | refused | discarded =>
    obtain ⟨entries, discarded⟩ := cache.discardPending_eq task.id task.revision
    rw [discarded]
    exact ⟨rfl, rfl, rfl⟩
  | admitted | read | unreadable | launched | completed | lost | rejected | condemned | superseded
  | installed | published | stopped | orphaned => exact ⟨rfl, rfl, rfl⟩

/-- A step of a task changes no entry but that of its own file: it drops it, since it gets no worker
or has seen that the document was closed, puts the mark of a new parse in place of its own if that
is dirty, or stores its outcome. -/
theorem TaskStep.entry_cases (taken : TaskStep env cache task move next) (id : Identity) :
    next.entries.get? id = cache.entries.get? id ∨ id = task.id ∧
      (next.entries.get? id = none ∧ (cache.admitting = false ∨ task.stage = .condemned) ∨
        next.entries.get? id = some (.pending (cache.lastRevision + 1) false false) ∧
          cache.accepting = true ∧
          cache.entries.get? id = some (.pending task.revision true false) ∨
        ∃ uri outcome, task.stage = .parsed uri outcome ∧
          next.entries.get? id = some (.ready task.revision outcome) ∧
          (cache.accepting = true →
            cache.entries.get? id ≠ some (.pending task.revision true false))) := by
  have discarded := cache.get?_discardPending_cases task.id id task.revision
  cases taken with
  | refused stage admitting =>
    rcases discarded with same | ⟨own, gone⟩
    · exact .inl same
    · exact .inr ⟨own, .inl ⟨gone, .inl admitting⟩⟩
  | discarded stage =>
    rcases discarded with same | ⟨own, gone⟩
    · exact .inl same
    · exact .inr ⟨own, .inl ⟨gone, .inr stage⟩⟩
  | superseded _ entry accepting =>
    by_cases same : id = task.id
    · rw [← same] at entry
      exact .inr ⟨same, .inr (.inl ⟨(get?_schedule ..).trans (if_pos same), accepting, entry⟩)⟩
    · exact .inl ((get?_schedule ..).trans (if_neg same))
  | @installed uri outcome stage entry =>
    have clean : cache.accepting = true →
        cache.entries.get? task.id ≠ some (.pending task.revision true false) := by
      intro accepting mark
      rcases entry with ⟨dirty, own, ended⟩ | ⟨older, held, other, -⟩
      · rw [mark] at own
        cases own
        rw [ended rfl] at accepting
        cases accepting
      · rw [mark] at other
        cases other
    by_cases same : id = task.id
    · rw [← same] at clean
      exact .inr ⟨same, .inr (.inr ⟨uri, outcome, stage, (get?_install ..).trans (if_pos same),
        clean⟩)⟩
    · exact .inl ((get?_install ..).trans (if_neg same))
  | admitted | read | unreadable | launched | completed | lost | rejected | condemned | published
  | stopped | orphaned => exact .inl rfl

/-- Revisions do not go back. -/
theorem TaskStep.lastRevision_le (taken : TaskStep env cache task move next) :
    cache.lastRevision ≤ next.lastRevision := by
  cases taken with
  | refused | discarded =>
    obtain ⟨entries, discarded⟩ := cache.discardPending_eq task.id task.revision
    rw [discarded]
    exact Nat.le_refl _
  | superseded => exact Nat.le_succ _
  | admitted | read | unreadable | launched | completed | lost | rejected | condemned | installed
  | published | stopped | orphaned => exact Nat.le_refl _

/-- No client lets parses be started again. -/
theorem ClientStep.accepting (taken : ClientStep calls cache next) :
    next.accepting = true → cache.accepting = true := by
  cases taken with
  | stopAccepting => exact nofun
  | idle | documents | scheduled | marked | evicted | stopAdmitting | abandoned => exact fun h => h

/-- Only the end of the work keeps workers from tasks. -/
theorem ClientStep.admitting (taken : ClientStep calls cache next) :
    next.admitting = cache.admitting ∨ .stopAdmitting ∈ calls := by
  cases taken with
  | stopAdmitting ending => exact .inr ending
  | idle | documents | scheduled | marked | evicted | stopAccepting | abandoned => exact .inl rfl

/-- Starting a parse of a file of which none is on its way does so, or nothing. -/
theorem ClientStep.of_start {id : Identity}
    (free : ∀ revision dirty closed,
      cache.entries.get? id ≠ some (.pending revision dirty closed)) :
    ClientStep calls cache (cache.start id).1 := by
  unfold start
  split_ifs with accepting
  · exact .scheduled id accepting free
  · exact .idle

/-- What asking for a parse can do. -/
theorem ClientStep.of_requestParse (cache : Cache α) (id : Identity) :
    ClientStep calls cache (cache.requestParse id).1 := by
  unfold requestParse
  split
  · exact .idle
  · rename_i other
    exact .of_start other

/-- What looking a file up can do. -/
theorem ClientStep.of_lookup (cache : Cache α) (id : Identity) :
    ClientStep calls cache (cache.lookup id).1 := by
  unfold lookup
  split
  · exact .idle
  · exact .idle
  · rename_i entry
    exact .of_start (free_of_none entry)

/-- What telling an entry of a text can do. -/
theorem ClientStep.of_reviseEntry (cache : Cache α) (id : Identity) (unchanged : Bool) :
    ClientStep calls cache (cache.reviseEntry id unchanged).1 := by
  unfold reviseEntry
  split
  · exact .marked _ _ ‹_›
  · exact .idle
  · exact .idle

/-- What dropping the outcome of a closed document can do. -/
theorem ClientStep.of_evict (cache : Cache α) (id : Identity) :
    ClientStep calls cache (cache.evict id) := by
  unfold evict
  split
  · exact .marked _ _ ‹_›
  · exact .evicted ‹_›
  · exact .idle

/-- What giving a parse up can do. -/
theorem ClientStep.of_abandon (cache : Cache α) (id : Identity) {left : List Identity}
    (ending : .abandon left ∈ calls) : ClientStep calls cache (cache.abandon id) := by
  unfold abandon
  split
  · exact .abandoned ending ‹_›
  · exact .idle

end

end Cache

open Cache

/-- Every next step of a call is one of those listed. -/
theorem World.clientStep_of_proceed {world next : World α} {call : Remainder}
    (begun : call ∈ world.calls) (taken : world.proceed call = some next) :
    ClientStep world.calls world.cache next.cache := by
  unfold proceed at taken
  split at taken
  · rename_i id unchanged
    have listed : ClientStep world.calls _ _ := .of_reviseEntry world.cache id unchanged
    split at taken
    · rename_i cache handle revised
      cases taken
      rw [revised] at listed
      exact listed
    · rename_i cache revised
      cases taken
      rw [revised] at listed
      exact listed
  · cases taken
    exact .of_requestParse _ _
  · cases taken
    exact .of_evict _ _
  · cases taken
    exact .stopAdmitting begun
  · cases taken
    exact .idle
  · cases taken

/-- Every step of a run is a step of a task, which leaves the rest of the world as it is, or a step
of a client. -/
theorem World.step_cases {env : Environment α} {world next : World α} {action : Action}
    (taken : world.step env action = some next) :
    (∃ task ∈ world.cache.tasks, ∃ move, action = .move task.revision move ∧
      next = world.withCache next.cache ∧
      TaskStep (env.on world.files) world.cache task move next.cache) ∨
    ((∀ revision move, action ≠ .move revision move) ∧
      ClientStep world.calls world.cache next.cache) := by
  cases action with
  | edit files =>
    cases taken
    exact .inr ⟨by rintro _ _ ⟨⟩, .idle⟩
  | update id document =>
    cases taken
    exact .inr ⟨by rintro _ _ ⟨⟩, .documents _⟩
  | close id =>
    refine .inr ⟨by rintro _ _ ⟨⟩, ?_⟩
    simp only [step] at taken
    split_ifs at taken <;> cases taken <;> exact .documents _
  | request id =>
    cases taken
    exact .inr ⟨by rintro _ _ ⟨⟩, .of_requestParse _ _⟩
  | look id =>
    cases taken
    exact .inr ⟨by rintro _ _ ⟨⟩, .of_lookup _ _⟩
  | shutdown =>
    refine .inr ⟨by rintro _ _ ⟨⟩, ?_⟩
    simp only [step] at taken
    split_ifs at taken <;> cases taken
    · exact .stopAccepting
    · exact .idle
  | proceed call =>
    refine .inr ⟨by rintro _ _ ⟨⟩, ?_⟩
    simp only [step] at taken
    split_ifs at taken with begun
    exact clientStep_of_proceed begun taken
  | sweep left id =>
    refine .inr ⟨by rintro _ _ ⟨⟩, ?_⟩
    simp only [step] at taken
    split_ifs at taken with begun
    cases taken
    exact .of_abandon _ _ begun.1
  | move revision move =>
    simp only [step] at taken
    split at taken
    · cases taken
    · rename_i task found
      obtain ⟨cache, applied, rfl⟩ := Option.map_eq_some_iff.mp taken
      have own : task.revision = revision := by simpa using List.find?_some found
      exact .inl ⟨task, List.mem_of_find?_eq_some found, move, by rw [own], rfl,
        .of_apply applied⟩

end DiagnosticServer
