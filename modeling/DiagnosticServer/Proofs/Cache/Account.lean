import DiagnosticServer.Proofs.Cache.Discipline

/-!
# Every stored outcome is announced once

A task stores its outcome in one step and announces it in another, or comes to an end without doing
either. `Stage.rank` counts how far a task has come; it rises with every step, so no task takes the
same step twice. `Accounted` ties what was announced, and what has still to be, to the moments of
the run at which tasks read their documents and stored their outcomes. `stored_outcomes_announced`
draws the conclusions.
-/

namespace DiagnosticServer

variable {α : Type}

open Cache

/-! ## How far a task has come -/

/-- How far a task in this stage has come. -/
def Stage.rank : Stage α → Nat
  | queued => 0
  | admitted => 1
  | reading _ => 2
  | parsing _ _ | orphaned _ => 3
  | parsed _ _ => 4
  | condemned | installed _ _ => 5

/-- How far a task has come, at the least, when it takes a step. It is the rank of its stage, except
that a task may stop at several ones. -/
def Move.rank : Move → Nat
  | assignWorker | refuse | stop => 0
  | readDocument => 1
  | launch => 2
  | complete => 3
  | store => 4
  | discard | publish => 5

/-- Where a task in this stage will announce its outcome, once it has looked: the URI of its
document, if that was open. -/
def Stage.destination? : Stage α → Option (Option Uri)
  | reading document => some (document.map Document.uri)
  | parsing uri _ | parsed uri _ | installed uri _ => some uri
  | queued | admitted | condemned | orphaned _ => none

/-- Somebody may wait for a task that has an outcome to announce. -/
theorem Stage.isAwaited_of_settled {stage : Stage α} (settled : stage.isUnsettled = false) :
    stage.isAwaited = true := by
  cases stage with
  | installed => rfl
  | queued | admitted | reading | parsing | parsed | condemned | orphaned => cases settled

/-- The revision of which an event tells the client. -/
def Event.announced? : Event α → Option Nat
  | .called _ _ _ => none
  | .announced _ revision _ _ _ => some revision

/-- The revisions of which the client was told, in order. -/
def Cache.announced (cache : Cache α) : List Nat := cache.history.filterMap Event.announced?

/-- Whether at that moment the task of that revision stores that outcome for a file. -/
def Installs (env : Environment α) (moment : World α × Action) (id : Identity) (revision : Nat)
    (outcome : Outcome α) : Prop :=
  moment.2 = .move revision .store ∧ ∃ next, moment.1.step env moment.2 = some next ∧
    next.cache.entries.get? id = some (.ready revision outcome)

/-- Whether that is the one moment of a run at which a step was taken. -/
def Once (trail : List (World α × Action)) (action : Action) (moment : World α × Action) : Prop :=
  moment ∈ trail ∧ moment.2 = action ∧ ∀ other ∈ trail, other.2 = action → other = moment

namespace Cache

section

variable {env : Environment α} {cache next : Cache α} {task t : Task α} {move : Move}
  {calls : List Remainder}

/-! ## What steps do to tasks, outcomes and announcements -/

/-- A task is announced as that of the file, revision and outcome which an event tells of. -/
theorem mem_announced {revision : Nat} :
    revision ∈ cache.announced ↔
      ∃ id uri outcome sent, .announced id revision uri outcome sent ∈ cache.history := by
  unfold announced
  rw [List.mem_filterMap]
  constructor
  · rintro ⟨event, member, told⟩
    cases event with
    | called => cases told
    | announced id r uri outcome sent =>
      cases told
      exact ⟨id, uri, outcome, sent, member⟩
  · rintro ⟨id, uri, outcome, sent, member⟩
    exact ⟨_, member, rfl⟩

/-- A task takes every step at its own rank, but for stopping. -/
theorem TaskStep.rank_eq (taken : TaskStep env cache task move next) (other : move ≠ .stop) :
    task.stage.rank = move.rank := by
  cases taken with
  | stopped | orphaned => exact absurd rfl other
  | admitted stage | refused stage | read stage | unreadable stage | launched stage
  | completed _ stage | lost _ stage | rejected stage | condemned stage | superseded stage
  | installed stage | discarded stage | published stage =>
    rw [stage]
    rfl

/-- A task that goes on after a step has come further than the step. -/
theorem Coherent.rank_lt_of_taskStep (coherent : Coherent cache) (member : task ∈ cache.tasks)
    (taken : TaskStep env cache task move next) (ht : t ∈ next.tasks)
    (same : t.revision = task.revision) :
    task.stage.rank ≤ t.stage.rank ∧ move.rank < t.stage.rank := by
  have dropped : ∀ cache : Cache α, t ∉ (cache.dropTask task.revision).tasks :=
    fun cache left => (mem_dropTask.mp left).2 same
  cases taken with
  | refused | discarded | lost | rejected | superseded | published | stopped =>
    exact absurd ht (dropped _)
  | admitted stage | read stage | unreadable stage | launched stage | completed _ stage
  | condemned stage | installed stage | orphaned _ stage =>
    rcases (coherent.mem_moveTask member).mp ht with rfl | ⟨-, hne⟩
    · rw [stage]
      simp [Stage.rank, Move.rank]
    · exact absurd same hne

/-- A step of a task leaves the other tasks. -/
theorem Coherent.mem_taskStep (coherent : Coherent cache) (member : task ∈ cache.tasks)
    (taken : TaskStep env cache task move next) (ht : t ∈ cache.tasks)
    (other : t.revision ≠ task.revision) : t ∈ next.tasks := by
  cases taken with
  | refused | discarded =>
    obtain ⟨entries, discarded⟩ := cache.discardPending_eq task.id task.revision
    rw [discarded]
    exact mem_dropTask.mpr ⟨ht, other⟩
  | lost | rejected | published | stopped => exact mem_dropTask.mpr ⟨ht, other⟩
  | superseded => exact mem_dropTask.mpr ⟨List.mem_append_left _ ht, other⟩
  | admitted | read | unreadable | launched | completed | condemned | installed | orphaned =>
    exact (coherent.mem_moveTask member).mpr (.inr ⟨ht, other⟩)

/-- A task keeps in mind where to announce its outcome, once it has looked. -/
theorem Coherent.destination_of_taskStep (coherent : Coherent cache) (member : task ∈ cache.tasks)
    (taken : TaskStep env cache task move next) (ht : t ∈ next.tasks)
    (same : t.revision = task.revision) {uri : Option Uri}
    (bound : t.stage.destination? = some uri) :
    task.stage.destination? = some uri ∨
      move = .readDocument ∧ uri = (cache.documents.get? task.id).map Document.uri := by
  have dropped : ∀ cache : Cache α, t ∉ (cache.dropTask task.revision).tasks :=
    fun cache left => (mem_dropTask.mp left).2 same
  cases taken with
  | refused | discarded | lost | rejected | superseded | published | stopped =>
    exact absurd ht (dropped _)
  | admitted | condemned | orphaned =>
    rcases (coherent.mem_moveTask member).mp ht with rfl | ⟨-, hne⟩
    · cases bound
    · exact absurd same hne
  | read stage =>
    rcases (coherent.mem_moveTask member).mp ht with rfl | ⟨-, hne⟩
    · cases bound
      exact .inr ⟨rfl, rfl⟩
    · exact absurd same hne
  | unreadable stage | launched stage | completed _ stage | installed stage =>
    rcases (coherent.mem_moveTask member).mp ht with rfl | ⟨-, hne⟩
    · rw [stage]
      exact .inl bound
    · exact absurd same hne

/-- A step of a task stores no outcome but its own. -/
theorem TaskStep.ready_cases (taken : TaskStep env cache task move next) {id : Identity}
    {revision : Nat} {outcome : Outcome α}
    (entry : next.entries.get? id = some (.ready revision outcome)) :
    cache.entries.get? id = some (.ready revision outcome) ∨
      ∃ uri, move = .store ∧ id = task.id ∧ revision = task.revision ∧
        next = cache.install task uri outcome := by
  cases taken with
  | refused | discarded => exact .inl (get?_of_discardPending entry)
  | superseded =>
    change (cache.schedule task.id).entries.get? id = _ at entry
    rw [get?_schedule] at entry
    split_ifs at entry
    · cases entry
    · exact .inl entry
  | @installed uri stored stage =>
    rw [get?_install] at entry
    split_ifs at entry with own
    · cases entry
      exact .inr ⟨uri, rfl, own, rfl, rfl⟩
    · exact .inl entry
  | admitted | read | unreadable | launched | completed | lost | rejected | condemned | published
  | stopped | orphaned => exact .inl entry

/-- A task that has an outcome to announce had it before, or has just stored it. -/
theorem Coherent.settled_of_taskStep (coherent : Coherent cache) (member : task ∈ cache.tasks)
    (taken : TaskStep env cache task move next) (ht : t ∈ next.tasks) {uri : Option Uri}
    {outcome : Outcome α} (settled : t.stage = .installed uri outcome) :
    t ∈ cache.tasks ∨ move = .store ∧ t.id = task.id ∧ t.revision = task.revision ∧
      next = cache.install task uri outcome := by
  rcases coherent.mem_of_taskStep member taken ht with ⟨ht, -⟩ | ⟨stage, rfl, -⟩ | rfl
  · exact .inl ht
  · obtain rfl : stage = .installed uri outcome := settled
    have dropped : ∀ cache : Cache α, { task with stage := .installed uri outcome } ∉
        (cache.dropTask task.revision).tasks := fun cache left => (mem_dropTask.mp left).2 rfl
    cases taken with
    | refused | discarded | lost | rejected | superseded | published | stopped =>
      exact absurd ht (dropped _)
    | installed =>
      rcases (coherent.mem_moveTask member).mp ht with same | ⟨-, hne⟩
      · rw [Task.mk.injEq, Stage.installed.injEq] at same
        obtain ⟨-, -, ⟨rfl, rfl⟩, -⟩ := same
        exact .inr ⟨rfl, rfl, rfl, rfl⟩
      · exact absurd rfl hne
    | admitted | read | unreadable | launched | completed | condemned | orphaned =>
      rcases (coherent.mem_moveTask member).mp ht with same | ⟨-, hne⟩
      · cases congrArg Task.stage same
      · exact absurd rfl hne
  · cases settled

/-- A step of a task announces no outcome but its own, and only once it is stored. -/
theorem TaskStep.announced_cases (taken : TaskStep env cache task move next) {id : Identity}
    {revision : Nat} {uri : Option Uri} {outcome : Outcome α} {sent : List Notification}
    (told : .announced id revision uri outcome sent ∈ next.history) :
    .announced id revision uri outcome sent ∈ cache.history ∨
      move = .publish ∧ id = task.id ∧ revision = task.revision ∧
        task.stage = .installed uri outcome ∧
        sent = Notification.announce env.files env.options id uri outcome := by
  cases taken with
  | refused | discarded =>
    obtain ⟨entries, discarded⟩ := cache.discardPending_eq task.id task.revision
    rw [discarded] at told
    exact .inl told
  | launched =>
    rcases List.mem_append.mp told with told | told
    · exact .inl told
    · cases List.mem_singleton.mp told
  | published stage =>
    rcases List.mem_append.mp told with told | told
    · exact .inl told
    · cases List.mem_singleton.mp told
      exact .inr ⟨rfl, rfl, rfl, stage, rfl⟩
  | admitted | read | unreadable | completed | lost | rejected | condemned | superseded | installed
  | stopped | orphaned => exact .inl told

/-- A task that has an outcome to announce can only announce it. -/
theorem TaskStep.announced_of_settled (taken : TaskStep env cache task move next)
    (settled : task.stage.isUnsettled = false) :
    next.announced = cache.announced ++ [task.revision] := by
  cases taken with
  | published => simp [announced, report, dropTask, Event.announced?]
  | stopped _ stage =>
    rcases stage with stage | ⟨_, _, stage⟩ <;> rw [stage] at settled <;> cases settled
  | admitted stage | refused stage | read stage | unreadable stage | launched stage
  | completed _ stage | lost _ stage | rejected stage | condemned stage | superseded stage
  | installed stage | discarded stage | orphaned _ stage =>
    rw [stage] at settled
    cases settled

/-- A task that has still to settle its entry announces nothing. -/
theorem TaskStep.announced_of_unsettled (taken : TaskStep env cache task move next)
    (unsettled : task.stage.isUnsettled = true) : next.announced = cache.announced := by
  cases taken with
  | refused | discarded =>
    obtain ⟨entries, discarded⟩ := cache.discardPending_eq task.id task.revision
    rw [discarded]
    rfl
  | launched => simp [announced, report, moveTask, Event.announced?]
  | published stage =>
    rw [stage] at unsettled
    cases unsettled
  | admitted | read | unreadable | completed | lost | rejected | condemned | superseded | installed
  | stopped | orphaned => rfl

/-- What was announced stays so. -/
theorem TaskStep.announced_mono (taken : TaskStep env cache task move next) {revision : Nat}
    (told : revision ∈ cache.announced) : revision ∈ next.announced := by
  cases settled : task.stage.isUnsettled with
  | true => rwa [taken.announced_of_unsettled settled]
  | false =>
    rw [taken.announced_of_settled settled]
    exact List.mem_append_left _ told

/-- Clients announce nothing. -/
theorem ClientStep.history_eq (taken : ClientStep calls cache next) :
    next.history = cache.history := by
  cases taken <;> rfl

/-- Revisions do not go back. -/
theorem ClientStep.lastRevision_le (taken : ClientStep calls cache next) :
    cache.lastRevision ≤ next.lastRevision := by
  cases taken with
  | scheduled => exact Nat.le_succ _
  | idle | documents | marked | evicted | stopAccepting | stopAdmitting | abandoned =>
    exact Nat.le_refl _

/-- Clients store no outcome. -/
theorem ClientStep.ready_of_ready (taken : ClientStep calls cache next) {id : Identity}
    {revision : Nat} {outcome : Outcome α}
    (entry : next.entries.get? id = some (.ready revision outcome)) :
    cache.entries.get? id = some (.ready revision outcome) := by
  cases taken with
  | idle | documents | stopAccepting | stopAdmitting => exact entry
  | scheduled =>
    rw [get?_schedule] at entry
    split_ifs at entry
    · cases entry
    · exact entry
  | marked =>
    rw [Table.get?_insert] at entry
    split_ifs at entry
    · cases entry
    · exact entry
  | evicted | abandoned =>
    rw [Table.get?_erase] at entry
    split_ifs at entry
    exact entry

/-- After a step of a client there are the tasks from before, perhaps told to stop, and perhaps a
new one that waits for a worker. -/
theorem ClientStep.mem_of_mem (taken : ClientStep calls cache next) (ht : t ∈ next.tasks) :
    (∃ before ∈ cache.tasks, before.id = t.id ∧ before.revision = t.revision ∧
      before.stage = t.stage) ∨ t.revision = cache.lastRevision + 1 ∧ t.stage = .queued := by
  cases taken with
  | idle | documents | marked | evicted | stopAccepting | stopAdmitting =>
    exact .inl ⟨t, ht, rfl, rfl, rfl⟩
  | scheduled =>
    rcases List.mem_append.mp ht with ht | ht
    · exact .inl ⟨t, ht, rfl, rfl, rfl⟩
    · rw [List.mem_singleton.mp ht]
      exact .inr ⟨rfl, rfl⟩
  | abandoned =>
    obtain ⟨before, member, rfl⟩ := List.mem_map.mp ht
    refine .inl ⟨before, member, ?_⟩
    split_ifs <;> exact ⟨rfl, rfl, rfl⟩

/-- Clients take no task away and move none. -/
theorem ClientStep.mem_kept (taken : ClientStep calls cache next) (ht : t ∈ cache.tasks) :
    ∃ after ∈ next.tasks, after.id = t.id ∧ after.revision = t.revision ∧
      after.stage = t.stage := by
  cases taken with
  | idle | documents | marked | evicted | stopAccepting | stopAdmitting =>
    exact ⟨t, ht, rfl, rfl, rfl⟩
  | scheduled => exact ⟨t, List.mem_append_left _ ht, rfl, rfl, rfl⟩
  | abandoned =>
    refine ⟨_, List.mem_map.mpr ⟨t, ht, rfl⟩, ?_⟩
    split_ifs <;> exact ⟨rfl, rfl, rfl⟩

end

end Cache

/-! ## No step is taken twice -/

section

variable {env : Environment α} {world next : World α} {trail : List (World α × Action)}
  {action : Action}

/-- The tasks have come further than the steps that they have taken. -/
def World.Forward (world : World α) (trail : List (World α × Action)) : Prop :=
  ∀ past revision move, (past, Action.move revision move) ∈ trail →
    revision ≤ world.cache.lastRevision ∧
      ∀ task ∈ world.cache.tasks, task.revision = revision → move.rank < task.stage.rank

/-- Every step keeps the tasks ahead of the steps that they have taken. -/
theorem World.Forward.step (forward : world.Forward trail) (coherent : world.Coherent)
    (taken : world.step env action = some next) : next.Forward ((world, action) :: trail) := by
  intro past revision move passed
  rcases step_cases taken with ⟨task, member, moved, rfl, -, taken⟩ | ⟨other, taken⟩
  · have known := coherent.cache.revision_le member
    have grown := taken.lastRevision_le
    rcases List.mem_cons.mp passed with same | passed
    · cases same
      refine ⟨Nat.le_trans known grown, fun t ht same => ?_⟩
      exact (coherent.cache.rank_lt_of_taskStep member taken ht same).2
    · obtain ⟨bound, ahead⟩ := forward past revision move passed
      refine ⟨Nat.le_trans bound grown, fun t ht same => ?_⟩
      by_cases own : t.revision = task.revision
      · have below := ahead task member (own.symm.trans same)
        have risen := (coherent.cache.rank_lt_of_taskStep member taken ht own).1
        exact Nat.lt_of_lt_of_le below risen
      · rcases coherent.cache.mem_of_taskStep member taken ht with ⟨ht, -⟩ | ⟨_, rfl, -⟩ | rfl
        · exact ahead t ht same
        · exact absurd rfl own
        · -- A task that was just started has a revision of its own.
          change world.cache.lastRevision + 1 = revision at same
          omega
  · rcases List.mem_cons.mp passed with same | passed
    · cases same
      exact absurd rfl (other _ _)
    · obtain ⟨bound, ahead⟩ := forward past revision move passed
      refine ⟨Nat.le_trans bound taken.lastRevision_le, fun t ht same => ?_⟩
      rcases taken.mem_of_mem ht with ⟨before, member, -, named, stage⟩ | ⟨fresh, -⟩
      · rw [← stage]
        exact ahead before member (named.trans same)
      · omega

/-- Along every run the tasks are ahead of the steps that they have taken. -/
theorem Run.forward (run : Run env world trail) : world.Forward trail := by
  induction run with
  | start files => exact fun _ _ _ => nofun
  | step run action taken ih => exact ih.step run.coherent taken

/-- A step that a task takes now it has not taken before, unless it stops. -/
theorem World.Forward.new (forward : world.Forward trail) {revision : Nat} {move : Move}
    (taken : world.step env (.move revision move) = some next) (other : move ≠ .stop) :
    ∀ earlier ∈ trail, earlier.2 ≠ .move revision move := by
  rintro ⟨past, _⟩ passed rfl
  rcases step_cases taken with ⟨task, member, _, same, -, taken⟩ | ⟨client, -⟩
  · cases same
    have ahead := (forward past _ _ passed).2 task member rfl
    have level := taken.rank_eq other
    omega
  · exact client _ _ rfl

/-- No step of a task is taken twice, but for stopping. -/
theorem Run.once (run : Run env world trail) {moment : World α × Action} {revision : Nat}
    {move : Move} (other : move ≠ .stop) (passed : moment ∈ trail)
    (named : moment.2 = .move revision move) : Once trail (.move revision move) moment := by
  refine ⟨passed, named, ?_⟩
  induction run with
  | start files => cases passed
  | step run action taken ih =>
    intro repeated found same
    rcases List.mem_cons.mp passed with rfl | first <;>
      rcases List.mem_cons.mp found with rfl | second
    · rfl
    · cases named
      exact absurd same (run.forward.new taken other repeated second)
    · cases same
      exact absurd named (run.forward.new taken other moment first)
    · exact ih first repeated second same

/-! ## What is held belongs to the youngest parse -/

/-- The revision of the parse that an entry belongs to. -/
def Entry.revision : Entry α → Nat
  | .pending revision _ _ => revision
  | .ready revision _ => revision

/-- What is held for a file belongs to the youngest parse of it. -/
def Cache.Latest (cache : Cache α) : Prop :=
  ∀ id held, cache.entries.get? id = some held →
    ∀ revision, (id, revision) ∈ cache.started → revision ≤ held.revision

/-- Starting a parse keeps this so: it is the youngest from now on. -/
theorem Cache.Latest.schedule {cache : Cache α} (latest : cache.Latest)
    (coherent : cache.Coherent) (file : Identity) : (cache.schedule file).Latest := by
  intro id held entry revision started
  rw [get?_schedule] at entry
  rcases List.mem_append.mp started with earlier | fresh
  · split_ifs at entry with own
    · cases entry
      exact Nat.le_succ_of_le (coherent.bounded _ earlier)
    · exact latest id held entry revision earlier
  · cases List.mem_singleton.mp fresh
    rw [if_pos rfl] at entry
    cases entry
    exact Nat.le_refl _

/-- Every step of a task keeps this so. -/
theorem Cache.Latest.taskStep {cache after : Cache α} {task : Task α} {move : Move}
    (latest : cache.Latest) (coherent : cache.Coherent)
    (taken : TaskStep env cache task move after) : after.Latest := by
  cases taken with
  | refused | discarded =>
    obtain ⟨entries, discarded⟩ := cache.discardPending_eq task.id task.revision
    intro id held entry revision started
    refine latest id held (get?_of_discardPending entry) revision ?_
    rw [discarded] at started
    exact started
  | superseded => exact latest.schedule coherent task.id
  | installed stage entry =>
    intro id held found revision started
    rw [get?_install] at found
    split_ifs at found with own
    · -- The outcome takes the place of its own mark, or of what belonged to an older parse.
      cases found
      subst own
      rcases entry with ⟨dirty, mark, -⟩ | ⟨older, old, ready, below⟩
      · exact latest _ _ mark revision started
      · exact Nat.le_trans (latest _ _ ready revision started) (Nat.le_of_lt below)
    · exact latest id held found revision started
  | admitted | read | unreadable | launched | completed | lost | rejected | condemned | published
  | stopped | orphaned => exact latest

/-- Every step of a client keeps this so. -/
theorem Cache.Latest.clientStep {cache after : Cache α} {calls : List Remainder}
    (latest : cache.Latest) (coherent : cache.Coherent) (taken : ClientStep calls cache after) :
    after.Latest := by
  cases taken with
  | idle | documents | stopAccepting | stopAdmitting => exact latest
  | scheduled id => exact latest.schedule coherent id
  | marked _ _ mark =>
    intro id held entry revision started
    rw [Table.get?_insert] at entry
    split_ifs at entry with own
    · cases entry
      subst own
      exact latest _ _ mark revision started
    · exact latest id held entry revision started
  | evicted | abandoned =>
    intro id held entry revision started
    rw [Table.get?_erase] at entry
    split_ifs at entry
    exact latest id held entry revision started

/-- Along every run what is held for a file belongs to the youngest parse of it. -/
theorem Run.latest (run : Run env world trail) : world.cache.Latest := by
  induction run with
  | start files => exact fun _ _ => nofun
  | step run action taken ih =>
    rcases World.step_cases taken with ⟨_, -, _, -, -, taken⟩ | ⟨-, taken⟩
    · exact ih.taskStep run.coherent.cache taken
    · exact ih.clientStep run.coherent.cache taken

/-! ## Accounts -/

/-- What is held, what was announced and what has still to be are accounted for by the moments of
the run. -/
structure World.Accounted (env : Environment α) (world : World α)
    (trail : List (World α × Action)) : Prop where
  /-- A task announces its outcome where its document was open when it looked. -/
  recalled : ∀ task ∈ world.cache.tasks, ∀ uri, task.stage.destination? = some uri →
    ∃ moment ∈ trail, moment.2 = .move task.revision .readDocument ∧
      uri = (moment.1.cache.documents.get? task.id).map Document.uri
  /-- An outcome that is held was stored. -/
  stored : ∀ id revision outcome, world.cache.entries.get? id = some (.ready revision outcome) →
    ∃ moment ∈ trail, Installs env moment id revision outcome
  /-- An outcome that has still to be announced was stored. -/
  settled : ∀ task ∈ world.cache.tasks, ∀ uri outcome, task.stage = .installed uri outcome →
    ∃ moment ∈ trail, Installs env moment task.id task.revision outcome
  /-- What was announced was stored, and announced where the document was open. -/
  told : ∀ id revision uri outcome sent,
    .announced id revision uri outcome sent ∈ world.cache.history →
    (∃ moment ∈ trail, Installs env moment id revision outcome) ∧
    (∃ moment ∈ trail, moment.2 = .move revision .readDocument ∧
      uri = (moment.1.cache.documents.get? id).map Document.uri) ∧
    ∃ moment ∈ trail, moment.2 = .move revision .publish ∧
      sent = Notification.announce moment.1.files env.options id uri outcome
  /-- What was stored was announced, or has still to be. -/
  kept : ∀ moment ∈ trail, ∀ id revision outcome, Installs env moment id revision outcome →
    revision ∈ world.cache.announced ∨
      ∃ task ∈ world.cache.tasks, task.revision = revision ∧ task.stage.isUnsettled = false
  /-- Nothing was announced twice. -/
  distinct : world.cache.announced.Nodup

namespace World.Accounted

/-- At the start there is nothing to account for. -/
theorem initial (files : FileSystem) : (World.initial files : World α).Accounted env [] :=
  ⟨nofun, nofun, nofun, nofun, nofun, List.nodup_nil⟩

/-- A task that was announced is over. -/
theorem announced_ne (accounted : world.Accounted env trail) (forward : world.Forward trail)
    {task : Task α} (member : task ∈ world.cache.tasks) :
    task.revision ∉ world.cache.announced := by
  intro told
  obtain ⟨id, uri, outcome, sent, event⟩ := mem_announced.mp told
  obtain ⟨-, -, ⟨past, _⟩, passed, rfl, -⟩ := accounted.told id _ uri outcome sent event
  -- The task would have come further than any task comes.
  have ahead : 5 < task.stage.rank := (forward past _ _ passed).2 task member rfl
  cases stage : task.stage <;> rw [stage] at ahead <;> simp [Stage.rank] at ahead

/-- An outcome that is stored was not held before. -/
theorem not_ready_of_installs (accounted : world.Accounted env trail)
    (forward : world.Forward trail) {id : Identity} {revision : Nat} {outcome : Outcome α}
    (installs : Installs env (world, action) id revision outcome) :
    world.cache.entries.get? id ≠ some (.ready revision outcome) := by
  intro held
  obtain ⟨rfl, next, stepped, -⟩ := installs
  -- It would have been stored before, and no task stores its outcome twice.
  obtain ⟨moment, passed, named, -⟩ := accounted.stored id _ outcome held
  exact forward.new stepped nofun moment passed named

/-- What was stored by the step of a task or before it was announced, or has still to be. -/
theorem kept_of_taskStep (accounted : world.Accounted env trail) (coherent : world.Coherent)
    (forward : world.Forward trail) {task : Task α} (member : task ∈ world.cache.tasks)
    {move : Move} (stepped : world.step env (.move task.revision move) = some next)
    (taken : TaskStep (env.on world.files) world.cache task move next.cache)
    {moment : World α × Action} (passed : moment ∈ (world, .move task.revision move) :: trail)
    {id : Identity} {revision : Nat} {outcome : Outcome α}
    (stored : Installs env moment id revision outcome) :
    revision ∈ next.cache.announced ∨
      ∃ t ∈ next.cache.tasks, t.revision = revision ∧ t.stage.isUnsettled = false := by
  rcases List.mem_cons.mp passed with rfl | passed
  · -- The task has an outcome to announce from now on.
    have fresh := accounted.not_ready_of_installs forward stored
    obtain ⟨named, after, same, entry⟩ := stored
    cases named
    cases stepped.symm.trans same
    rcases taken.ready_cases entry with held | ⟨uri, -, rfl, -, installed⟩
    · exact absurd held fresh
    · refine .inr ⟨{ task with stage := .installed uri outcome }, ?_, rfl, rfl⟩
      rw [installed]
      exact (coherent.cache.mem_moveTask member).mpr (.inl rfl)
  · rcases accounted.kept moment passed id revision outcome stored with
      told | ⟨t, ht, rfl, settled⟩
    · exact .inl (taken.announced_mono told)
    · by_cases own : t.revision = task.revision
      · -- The task had an outcome to announce, and has announced it.
        obtain rfl := coherent.cache.eq_of_revision ht member own
        rw [taken.announced_of_settled settled]
        exact .inl (List.mem_append_right _ (List.mem_singleton.mpr rfl))
      · exact .inr ⟨t, coherent.cache.mem_taskStep member taken ht own, rfl, settled⟩

/-- Every step of a task is accounted for. -/
theorem taskStep (accounted : world.Accounted env trail) (coherent : world.Coherent)
    (forward : world.Forward trail) {task : Task α} (member : task ∈ world.cache.tasks)
    {move : Move} (stepped : world.step env (.move task.revision move) = some next)
    (taken : TaskStep (env.on world.files) world.cache task move next.cache) :
    next.Accounted env ((world, .move task.revision move) :: trail) := by
  -- A task that stores its outcome does so now.
  have installs : ∀ {uri outcome}, move = .store →
      next.cache = world.cache.install task uri outcome →
      Installs env (world, .move task.revision move) task.id task.revision outcome := by
    rintro uri outcome rfl installed
    refine ⟨rfl, next, stepped, ?_⟩
    rw [installed, get?_install, if_pos rfl]
  refine ⟨fun t ht uri bound => ?_, fun id revision outcome entry => ?_,
    fun t ht uri outcome stage => ?_, fun id revision uri outcome sent event => ?_,
    fun moment passed id revision outcome => accounted.kept_of_taskStep coherent forward member
      stepped taken passed, ?_⟩
  · rcases coherent.cache.mem_of_taskStep member taken ht with ⟨ht, -⟩ | ⟨stage, rfl, -⟩ | rfl
    · exact List.exists_mem_cons_of_exists (accounted.recalled t ht uri bound)
    · rcases coherent.cache.destination_of_taskStep member taken ht rfl bound with
        known | ⟨rfl, found⟩
      · exact List.exists_mem_cons_of_exists (accounted.recalled task member uri known)
      · exact ⟨_, List.mem_cons_self, rfl, found⟩
    · cases bound
  · rcases taken.ready_cases entry with held | ⟨uri, stores, rfl, rfl, installed⟩
    · exact List.exists_mem_cons_of_exists (accounted.stored id revision outcome held)
    · exact ⟨_, List.mem_cons_self, installs stores installed⟩
  · rcases coherent.cache.settled_of_taskStep member taken ht stage with
      ht | ⟨stores, named, same, installed⟩
    · exact List.exists_mem_cons_of_exists (accounted.settled t ht uri outcome stage)
    · rw [named, same]
      exact ⟨_, List.mem_cons_self, installs stores installed⟩
  · rcases taken.announced_cases event with event | ⟨rfl, rfl, rfl, stage, rfl⟩
    · obtain ⟨stored, read, published⟩ := accounted.told id revision uri outcome sent event
      exact ⟨List.exists_mem_cons_of_exists stored, List.exists_mem_cons_of_exists read,
        List.exists_mem_cons_of_exists published⟩
    · -- The task has stored this outcome and has kept in mind where to announce it.
      have stored := accounted.settled task member uri outcome stage
      have read := accounted.recalled task member uri (by rw [stage]; rfl)
      exact ⟨List.exists_mem_cons_of_exists stored, List.exists_mem_cons_of_exists read,
        _, List.mem_cons_self, rfl, rfl⟩
  · cases settled : task.stage.isUnsettled with
    | true =>
      rw [taken.announced_of_unsettled settled]
      exact accounted.distinct
    | false =>
      rw [taken.announced_of_settled settled]
      refine List.nodup_append.mpr ⟨accounted.distinct, List.nodup_singleton _, ?_⟩
      rintro revision told _ last rfl
      rw [List.mem_singleton.mp last] at told
      exact accounted.announced_ne forward member told

/-- Every step of a client is accounted for. -/
theorem clientStep (accounted : world.Accounted env trail) {calls : List Remainder}
    (other : ∀ revision move, action ≠ .move revision move)
    (taken : ClientStep calls world.cache next.cache) :
    next.Accounted env ((world, action) :: trail) := by
  have announced : next.cache.announced = world.cache.announced := by
    rw [Cache.announced, taken.history_eq, Cache.announced]
  refine ⟨fun t ht uri bound => ?_, fun id revision outcome entry => ?_,
    fun t ht uri outcome stage => ?_, fun id revision uri outcome sent event => ?_,
    fun moment passed id revision outcome stored => ?_, ?_⟩
  · rcases taken.mem_of_mem ht with ⟨before, member, named, same, stage⟩ | ⟨-, stage⟩
    · rw [← named, ← same]
      rw [← stage] at bound
      exact List.exists_mem_cons_of_exists (accounted.recalled before member uri bound)
    · rw [stage] at bound
      cases bound
  · exact List.exists_mem_cons_of_exists
      (accounted.stored id revision outcome (taken.ready_of_ready entry))
  · rcases taken.mem_of_mem ht with ⟨before, member, named, same, kept⟩ | ⟨-, queued⟩
    · rw [← named, ← same]
      exact List.exists_mem_cons_of_exists
        (accounted.settled before member uri outcome (kept.trans stage))
    · rw [queued] at stage
      cases stage
  · rw [taken.history_eq] at event
    obtain ⟨stored, read, published⟩ := accounted.told id revision uri outcome sent event
    exact ⟨List.exists_mem_cons_of_exists stored, List.exists_mem_cons_of_exists read,
      List.exists_mem_cons_of_exists published⟩
  · rcases List.mem_cons.mp passed with rfl | passed
    · exact absurd stored.1 (other _ _)
    · rw [announced]
      refine (accounted.kept moment passed id revision outcome stored).imp_right ?_
      rintro ⟨t, ht, same, settled⟩
      obtain ⟨after, member, -, named, stage⟩ := taken.mem_kept ht
      exact ⟨after, member, named.trans same, by rw [stage, settled]⟩
  · rw [announced]
    exact accounted.distinct

end World.Accounted

/-- Along every run everything is accounted for. -/
theorem Run.accounted (run : Run env world trail) : world.Accounted env trail := by
  induction run with
  | start files => exact .initial files
  | step run action stepped ih =>
    rcases World.step_cases stepped with ⟨task, member, move, rfl, -, taken⟩ | ⟨other, taken⟩
    · exact ih.taskStep run.coherent run.forward member stepped taken
    · exact ih.clientStep other taken

/-! ## What clients are told -/

/-- The client is sent one list of diagnostics, with one diagnostic for each problem in order, if
there is a URI to send it to. -/
theorem Notification.pushed_of_announce (files : FileSystem) (options : Options) (id : Identity)
    (uri : Option Uri) (outcome : Outcome α) :
    (announce files options id uri outcome).filter (fun message => !message.isLogged) =
      ((uri <|> id.toUri? files).map fun address => diagnostics address
        (outcome.problems.map (Diagnostic.ofProblem options.diagnosticSource))).toList := by
  unfold announce
  cases uri <|> id.toUri? files with
  | none => rfl
  | some address => dsimp only; split_ifs <;> rfl

/-- However the steps of clients and tasks follow each other, also while the work ends and after it:
of every announcement there was one moment at which its task looked its document up, one at which it
stored its outcome and one at which it announced it. The outcome that was announced is the one that
was stored, so one that found its entry gone, closed or dirty was not announced; and the client was
sent its diagnostics, one for each problem in order, to the URI under which the document was open
when the task looked, or else to that of the file. No revision was announced twice. And when no task
is left that somebody may wait for, the revisions that were announced are those of the outcomes that
were stored. -/
theorem stored_outcomes_announced (run : Run env world trail) :
    (∀ id revision uri outcome sent,
      .announced id revision uri outcome sent ∈ world.cache.history →
      ∃ read stored published, Once trail (.move revision .readDocument) read ∧
        Once trail (.move revision .store) stored ∧
        Once trail (.move revision .publish) published ∧
        Installs env stored id revision outcome ∧
        uri = (read.1.cache.documents.get? id).map Document.uri ∧
        sent.filter (fun message => !message.isLogged) =
          ((uri <|> id.toUri? published.1.files).map fun address => .diagnostics address
            (outcome.problems.map (Diagnostic.ofProblem env.options.diagnosticSource))).toList) ∧
    world.cache.announced.Nodup ∧
    ((∀ task ∈ world.cache.tasks, task.stage.isAwaited = false) → ∀ revision,
      revision ∈ world.cache.announced ↔
        ∃ moment ∈ trail, ∃ id outcome, Installs env moment id revision outcome) := by
  have accounted := run.accounted
  refine ⟨fun id revision uri outcome sent event => ?_, accounted.distinct,
    fun quiet revision => ⟨fun told => ?_, ?_⟩⟩
  · obtain ⟨⟨stored, passed, installs⟩, ⟨read, past, looked, found⟩,
      ⟨published, last, announced, rfl⟩⟩ := accounted.told id revision uri outcome sent event
    exact ⟨read, stored, published, run.once nofun past looked, run.once nofun passed installs.1,
      run.once nofun last announced, installs, found, Notification.pushed_of_announce ..⟩
  · obtain ⟨id, uri, outcome, sent, event⟩ := mem_announced.mp told
    obtain ⟨⟨stored, passed, installs⟩, -⟩ := accounted.told id revision uri outcome sent event
    exact ⟨stored, passed, id, outcome, installs⟩
  · rintro ⟨moment, passed, id, outcome, installs⟩
    rcases accounted.kept moment passed id revision outcome installs with
      told | ⟨task, member, -, settled⟩
    · exact told
    · -- A task that has an outcome to announce is one that somebody may wait for.
      have awaited := Stage.isAwaited_of_settled settled
      rw [quiet task member] at awaited
      cases awaited

/-- A text is changed while its parser is running, and the work ends while another file waits to be
parsed: the outcome of the second text was stored and announced, and that of no other parse. -/
theorem stored_outcomes_announced_after_edit : ∃ world trail, Run (Trial.env 1) world trail ∧
    (∀ task ∈ world.cache.tasks, task.stage.isAwaited = false) ∧
    world.cache.started = [(Trial.file, 1), (Trial.file, 2), (Trial.otherFile, 3)] ∧
    world.cache.announced = [2] ∧
    (∃ stored, Once trail (.move 2 .store) stored ∧
      Installs (Trial.env 1) stored Trial.file 2 (.success () [])) ∧
    ∀ moment ∈ trail, ∀ id revision outcome, revision ≠ 2 →
      ¬ Installs (Trial.env 1) moment id revision outcome := by
  obtain ⟨world, trail, run, quiet, started, announced, uri, sent, event⟩ : ∃ world trail,
      Run (Trial.env 1) world trail ∧
      (∀ task ∈ world.cache.tasks, task.stage.isAwaited = false) ∧
      world.cache.started = [(Trial.file, 1), (Trial.file, 2), (Trial.otherFile, 3)] ∧
      world.cache.announced = [2] ∧
      ∃ uri sent, .announced Trial.file 2 uri (.success () []) sent ∈ world.cache.history :=
    ⟨_, _, (Trial.start 1).follow
      [.update Trial.file (Trial.document "unsound"), .proceed (.revise Trial.file false),
        .proceed (.request Trial.file), .move 1 .assignWorker, .move 1 .readDocument,
        .move 1 .launch, .update Trial.file (Trial.document "sound"),
        .proceed (.revise Trial.file false), .move 1 .complete, .move 1 .store,
        .move 2 .assignWorker, .move 2 .readDocument, .move 2 .launch, .move 2 .complete,
        .move 2 .store, .request Trial.otherFile, .shutdown, .proceed .stopAdmitting,
        .move 3 .refuse, .move 2 .publish] rfl, by decide, rfl, rfl, _, _,
      List.mem_append_right _ List.mem_cons_self⟩
  obtain ⟨told, -, balanced⟩ := stored_outcomes_announced run
  obtain ⟨_, stored, _, -, once, -, installs, -⟩ := told _ _ _ _ _ event
  refine ⟨world, trail, run, quiet, started, announced, ⟨stored, once, installs⟩, ?_⟩
  intro moment passed id revision outcome other installed
  have listed := (balanced quiet revision).mpr ⟨moment, passed, id, outcome, installed⟩
  rw [announced] at listed
  exact other (List.mem_singleton.mp listed)

end

end DiagnosticServer
