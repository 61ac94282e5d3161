import DiagnosticServer.Proofs.Cache.Reopening

/-!
# The order of announcements

A task stores its outcome in one step and tells the client of it in another, and nothing is looked
at in the second. If a text is changed in between, the next parse may have stored and announced its
outcome before the first task comes to announce its own, and the client is left with the diagnostics
of the earlier text.

`Turn` sorts the steps of a run by what they do to the announcements of a file and to the outcomes
that have still to be announced. `announced_in_order_iff` shows that the announcements of each file
come in the order of their revisions as long as no task overtakes another one in this way, and that
the last of them is then that of the outcome at hand; `announcements_out_of_order` is a run on which
one does.
-/

namespace DiagnosticServer

variable {α : Type}

open Cache

/-- The revision of the parse that an event belongs to. -/
def Event.revision : Event α → Nat
  | .called _ revision _ => revision
  | .announced _ revision _ _ _ => revision

/-- Whether an event tells the client of an outcome of a file. -/
def Event.isPushOf (id : Identity) : Event α → Bool
  | .called _ _ _ => false
  | .announced other _ _ _ _ => other = id

/-- What the client was told of the outcomes of a file, in order. -/
def Cache.pushes (cache : Cache α) (id : Identity) : List (Event α) :=
  cache.history.filter (Event.isPushOf id)

/-- Whether a step announces an outcome while an older one of the same file has still to be
announced. -/
def Overtakes (world : World α) : Action → Prop
  | .move revision .publish => ∃ task ∈ world.cache.tasks, task.revision = revision ∧
      ∃ older ∈ world.cache.tasks, older.id = task.id ∧ older.revision < task.revision ∧
        older.stage.isUnsettled = false
  | _ => False

instance (world : World α) : DecidablePred (Overtakes world)
  | .move revision .publish => inferInstanceAs
    (Decidable (∃ task ∈ world.cache.tasks, task.revision = revision ∧
      ∃ older ∈ world.cache.tasks, older.id = task.id ∧ older.revision < task.revision ∧
        older.stage.isUnsettled = false))
  | .move _ .assignWorker | .move _ .refuse | .move _ .readDocument | .move _ .launch
  | .move _ .complete | .move _ .store | .move _ .discard | .move _ .stop
  | .edit _ | .update _ _ | .close _ | .request _ | .look _ | .shutdown | .proceed _
  | .sweep _ _ => isFalse id

/-! ## Steps by what they do to announcements -/

namespace Cache

/-- No parse is started, and no outcome is stored or announced. -/
structure Quiet (cache next : Cache α) : Prop where
  /-- Nothing is announced. -/
  pushes : ∀ id, next.pushes id = cache.pushes id
  /-- Nothing is started. -/
  lastRevision : next.lastRevision = cache.lastRevision
  /-- Every task was there before, and had or had not settled its entry. -/
  tasks : ∀ task ∈ next.tasks, ∃ before ∈ cache.tasks, before.id = task.id ∧
    before.revision = task.revision ∧ before.stage.isUnsettled = task.stage.isUnsettled
  /-- Whatever has still to be announced stays so. -/
  settled : ∀ task ∈ cache.tasks, task.stage.isUnsettled = false →
    ∃ after ∈ next.tasks, after.id = task.id ∧ after.revision = task.revision ∧
      after.stage = task.stage
  /-- No outcome is stored. -/
  entries : ∀ id revision outcome, next.entries.get? id = some (.ready revision outcome) →
    cache.entries.get? id = some (.ready revision outcome)

/-- What a step does to the announcements and the outcomes that have still to be announced. -/
inductive Turn (env : Environment α) (cache : Cache α) : Action → Cache α → Prop where
  /-- Nothing. -/
  | quiet {action : Action} {next : Cache α} (other : ∀ revision, action ≠ .move revision .publish)
      (quiet : Quiet cache next) : Turn env cache action next
  /-- It starts a parse of a file that no task has still to settle, perhaps any more. -/
  | starts {action : Action} {id : Identity} {between next : Cache α}
      (other : ∀ revision, action ≠ .move revision .publish) (quiet : Quiet cache between)
      (free : ∀ task ∈ between.tasks, task.stage.isUnsettled = true → task.id ≠ id)
      (pushes : ∀ id, next.pushes id = between.pushes id)
      (lastRevision : next.lastRevision = between.lastRevision + 1)
      (tasks : next.tasks = between.tasks ++ [⟨id, between.lastRevision + 1, .queued, false⟩])
      (entries : ∀ id revision outcome, next.entries.get? id = some (.ready revision outcome) →
        between.entries.get? id = some (.ready revision outcome)) : Turn env cache action next
  /-- It stores an outcome. -/
  | installs {action : Action} {task : Task α} {uri : Option Uri} {outcome : Outcome α}
      (other : ∀ revision, action ≠ .move revision .publish) (member : task ∈ cache.tasks)
      (stage : task.stage = .parsed uri outcome) :
      Turn env cache action (cache.install task uri outcome)
  /-- It announces an outcome. -/
  | announces {task : Task α} {uri : Option Uri} {outcome : Outcome α}
      (member : task ∈ cache.tasks) (stage : task.stage = .installed uri outcome) :
      Turn env cache (.move task.revision .publish)
        ((cache.report (.announced task.id task.revision uri outcome
          (Notification.announce env.files env.options task.id uri outcome))).dropTask
            task.revision)

section

variable {env : Environment α} {cache next : Cache α} {task : Task α} {action : Action}

/-- What was announced can be seen. -/
theorem pushes_congr (history : next.history = cache.history) (id : Identity) :
    next.pushes id = cache.pushes id := by
  rw [pushes, history, pushes]

/-- The start of a parser is not announced. -/
theorem pushes_called (cache : Cache α) (id other : Identity) (revision : Nat) (call : Call) :
    (cache.report (.called other revision call)).pushes id = cache.pushes id := by
  simp [pushes, report, Event.isPushOf]

/-- An outcome is announced after those before it. -/
theorem pushes_announced (cache : Cache α) (task : Task α) (uri : Option Uri) (outcome : Outcome α)
    (sent : List Notification) (id : Identity) :
    ((cache.report (.announced task.id task.revision uri outcome sent)).dropTask
      task.revision).pushes id = cache.pushes id ++
        if task.id = id then [.announced task.id task.revision uri outcome sent] else [] := by
  simp only [pushes, dropTask, report, List.filter_append, List.filter_cons, List.filter_nil,
    Event.isPushOf, decide_eq_true_eq]

/-- A step that leaves tasks, revisions and announcements as they are and stores no outcome is
quiet. -/
theorem Quiet.of_same (history : next.history = cache.history)
    (lastRevision : next.lastRevision = cache.lastRevision) (tasks : next.tasks = cache.tasks)
    (entries : ∀ id revision outcome, next.entries.get? id = some (.ready revision outcome) →
      cache.entries.get? id = some (.ready revision outcome)) : Quiet cache next := by
  refine ⟨pushes_congr history, lastRevision, ?_, ?_, entries⟩
  · rw [tasks]
    exact fun task member => ⟨task, member, rfl, rfl, rfl⟩
  · rw [tasks]
    exact fun task member _ => ⟨task, member, rfl, rfl, rfl⟩

/-- Moving a task that has still to settle its entry, and has so afterwards, is quiet. -/
theorem Quiet.of_move (coherent : Coherent cache) (member : task ∈ cache.tasks) {stage : Stage α}
    (before : task.stage.isUnsettled = true) (after : stage.isUnsettled = true)
    (pushes : ∀ id, next.pushes id = cache.pushes id)
    (lastRevision : next.lastRevision = cache.lastRevision)
    (tasks : next.tasks = (cache.moveTask task.revision stage).tasks)
    (entries : next.entries = cache.entries) : Quiet cache next := by
  refine ⟨pushes, lastRevision, fun t ht => ?_, fun t ht settled => ?_, ?_⟩
  · rw [tasks] at ht
    rcases (coherent.mem_moveTask member).mp ht with rfl | ⟨ht, -⟩
    · exact ⟨task, member, rfl, rfl, before.trans after.symm⟩
    · exact ⟨t, ht, rfl, rfl, rfl⟩
  · -- The task that is moved is not one that has settled its entry.
    rw [tasks]
    refine ⟨t, (coherent.mem_moveTask member).mpr (.inr ⟨ht, fun same => ?_⟩), rfl, rfl, rfl⟩
    rw [coherent.eq_of_revision ht member same, before] at settled
    cases settled
  · rw [entries]
    exact fun _ _ _ entry => entry

/-- Dropping a task that has still to settle its entry is quiet. -/
theorem Quiet.of_drop (coherent : Coherent cache) (member : task ∈ cache.tasks)
    (unsettled : task.stage.isUnsettled = true) (history : next.history = cache.history)
    (lastRevision : next.lastRevision = cache.lastRevision)
    (tasks : next.tasks = (cache.dropTask task.revision).tasks)
    (entries : ∀ id held, next.entries.get? id = some held → cache.entries.get? id = some held) :
    Quiet cache next := by
  refine ⟨pushes_congr history, lastRevision, fun t ht => ?_,
    fun t ht settled => ?_, fun id revision outcome => entries id _⟩
  · rw [tasks] at ht
    exact ⟨t, (mem_dropTask.mp ht).1, rfl, rfl, rfl⟩
  · rw [tasks]
    refine ⟨t, mem_dropTask.mpr ⟨ht, fun same => ?_⟩, rfl, rfl, rfl⟩
    rw [coherent.eq_of_revision ht member same, unsettled] at settled
    cases settled

/-- An outcome that is at hand when a parse was started was so before. -/
theorem ready_of_schedule {id other : Identity} {revision : Nat} {outcome : Outcome α}
    (entry : (cache.schedule id).entries.get? other = some (.ready revision outcome)) :
    cache.entries.get? other = some (.ready revision outcome) := by
  rw [get?_schedule] at entry
  split_ifs at entry with own
  · cases entry
  · exact entry

/-- What a step of a task does. -/
theorem Turn.of_taskStep {move : Move} (coherent : Coherent cache) (member : task ∈ cache.tasks)
    (taken : TaskStep env cache task move next) :
    Turn env cache (.move task.revision move) next := by
  cases taken with
  | admitted stage | read stage | unreadable stage | completed _ stage | condemned stage
  | orphaned _ stage =>
    refine .quiet (fun _ => nofun) ?_
    refine .of_move coherent member ?_ ?_ (pushes_congr rfl) rfl rfl rfl
    · rw [stage]
      rfl
    · rfl
  | launched stage =>
    refine .quiet (fun _ => nofun) ?_
    refine .of_move coherent member ?_ ?_ (fun id => pushes_called _ id _ _ _) rfl rfl rfl
    · rw [stage]
      rfl
    · rfl
  | refused stage | discarded stage =>
    obtain ⟨entries, discarded⟩ := cache.discardPending_eq task.id task.revision
    refine .quiet (fun _ => nofun) ?_
    refine .of_drop coherent member ?_ ?_ ?_ ?_ fun _ _ => get?_of_discardPending
    · rw [stage]
      rfl
    all_goals
      rw [discarded]
      rfl
  | lost _ stage | rejected stage =>
    refine .quiet (fun _ => nofun) ?_
    refine .of_drop coherent member ?_ rfl rfl rfl fun _ _ entry => entry
    rw [stage]
    rfl
  | stopped _ stage =>
    refine .quiet (fun _ => nofun) ?_
    refine .of_drop coherent member ?_ rfl rfl rfl fun _ _ entry => entry
    rcases stage with stage | ⟨_, _, stage⟩ <;> rw [stage] <;> rfl
  | superseded stage =>
    have unsettled : task.stage.isUnsettled = true := by
      rw [stage]
      rfl
    have quiet : Quiet cache (cache.dropTask task.revision) :=
      .of_drop coherent member unsettled rfl rfl rfl fun _ _ entry => entry
    -- It is as if the task had gone before the new parse was started.
    refine .starts (fun _ => nofun) quiet (fun t ht hu same => ?_) (pushes_congr rfl) rfl
      (coherent.tasks_of_supersede member) fun id revision outcome entry => ?_
    · obtain ⟨ht, hne⟩ := mem_dropTask.mp ht
      exact hne (coherent.sole t ht task member hu unsettled same)
    · exact ready_of_schedule entry
  | installed stage => exact .installs (fun _ => nofun) member stage
  | published stage => exact .announces member stage

/-- What a step of a client does. -/
theorem Turn.of_clientStep {calls : List Remainder} (coherent : Coherent cache)
    (other : ∀ revision, action ≠ .move revision .publish) (taken : ClientStep calls cache next) :
    Turn env cache action next := by
  cases taken with
  | idle | documents | stopAccepting | stopAdmitting =>
    exact .quiet other (.of_same rfl rfl rfl fun _ _ _ entry => entry)
  | scheduled id accepting free =>
    exact .starts other (.of_same rfl rfl rfl fun _ _ _ entry => entry)
      (coherent.free_of_no_mark accepting free) (pushes_congr rfl) rfl rfl
      fun _ _ _ => ready_of_schedule
  | @marked id _ _ _ _ _ entry =>
    refine .quiet other (.of_same rfl rfl rfl fun name revision outcome ready => ?_)
    rw [Table.get?_insert] at ready
    split_ifs at ready
    · cases ready
    · exact ready
  | @evicted id =>
    refine .quiet other (.of_same rfl rfl rfl fun name revision outcome ready => ?_)
    rw [Table.get?_erase] at ready
    split_ifs at ready
    exact ready
  | @abandoned left id abandoned dirty closed ending entry =>
    refine .quiet other ⟨pushes_congr rfl, rfl, fun t ht => ?_, fun t ht settled => ?_,
      fun name revision outcome ready => ?_⟩
    · obtain ⟨t₀, ht₀, rfl⟩ := List.mem_map.mp ht
      refine ⟨t₀, ht₀, ?_⟩
      split_ifs <;> exact ⟨rfl, rfl, rfl⟩
    · refine ⟨_, List.mem_map.mpr ⟨t, ht, rfl⟩, ?_⟩
      split_ifs <;> exact ⟨rfl, rfl, rfl⟩
    · rw [Table.get?_erase] at ready
      split_ifs at ready
      exact ready

end

end Cache

/-- What a step of a run does. -/
theorem World.turn_of_step {env : Environment α} {world next : World α} {action : Action}
    (coherent : world.Coherent) (taken : world.step env action = some next) :
    Turn (env.on world.files) world.cache action next.cache := by
  rcases step_cases taken with ⟨task, member, move, rfl, -, taken⟩ | ⟨other, taken⟩
  · exact .of_taskStep coherent.cache member taken
  · exact .of_clientStep coherent.cache (fun revision => other revision .publish) taken

/-! ## What was announced, and what has still to be -/

namespace Cache

/-- The announcements fit the tasks and the outcomes at hand. -/
structure Announcing (options : Options) (cache : Cache α) : Prop where
  /-- What was announced was started. -/
  bounded : ∀ id, ∀ push ∈ cache.pushes id, push.revision ≤ cache.lastRevision
  /-- A task that has still to settle its entry comes after all that was announced of its file. -/
  behind : ∀ task ∈ cache.tasks, task.stage.isUnsettled = true →
    ∀ push ∈ cache.pushes task.id, push.revision < task.revision
  /-- It is also the youngest task of its file. -/
  youngest : ∀ a ∈ cache.tasks, ∀ b ∈ cache.tasks, a.id = b.id → b.stage.isUnsettled = true →
    a.revision ≤ b.revision
  /-- The outcome at hand is the last of those that were announced or have still to be. -/
  latest : ∀ id revision outcome, cache.entries.get? id = some (.ready revision outcome) →
    (∀ push ∈ cache.pushes id, push.revision ≤ revision) ∧
      ∀ task ∈ cache.tasks, task.id = id → task.stage.isUnsettled = false → task.revision ≤ revision
  /-- The outcome at hand was announced or has still to be. -/
  shown : ∀ id revision outcome, cache.entries.get? id = some (.ready revision outcome) →
    (∃ uri files, .announced id revision uri outcome
      (Notification.announce files options id uri outcome) ∈ cache.pushes id) ∨
    ∃ task ∈ cache.tasks, task.id = id ∧ task.revision = revision ∧
      ∃ uri, task.stage = .installed uri outcome

namespace Announcing

variable {env : Environment α} {options : Options} {cache next : Cache α} {task : Task α}
  {action : Action}

/-- At the start nothing was announced. -/
theorem empty (options : Options) : Announcing options (Cache.empty : Cache α) :=
  ⟨fun _ => nofun, nofun, nofun, nofun, nofun⟩

/-- Where nothing is started, stored or announced, all stays in place. -/
theorem quiet (announcing : Announcing options cache) (quiet : Quiet cache next) :
    Announcing options next := by
  refine ⟨fun id push member => ?_, fun t ht unsettled push member => ?_,
    fun a ha b hb same unsettled => ?_, fun id revision outcome entry => ⟨fun push member => ?_,
      fun t ht own settled => ?_⟩, fun id revision outcome entry => ?_⟩
  · rw [quiet.pushes] at member
    rw [quiet.lastRevision]
    exact announcing.bounded id push member
  · obtain ⟨t₀, ht₀, hid, hrev, hu⟩ := quiet.tasks t ht
    rw [quiet.pushes, ← hid] at member
    rw [← hrev]
    exact announcing.behind t₀ ht₀ (hu.trans unsettled) push member
  · obtain ⟨a₀, ha₀, hida, hreva, -⟩ := quiet.tasks a ha
    obtain ⟨b₀, hb₀, hidb, hrevb, hu⟩ := quiet.tasks b hb
    rw [← hreva, ← hrevb]
    exact announcing.youngest a₀ ha₀ b₀ hb₀ (hida.trans (same.trans hidb.symm)) (hu.trans unsettled)
  · rw [quiet.pushes] at member
    exact (announcing.latest id revision outcome (quiet.entries _ _ _ entry)).1 push member
  · obtain ⟨t₀, ht₀, hid, hrev, hu⟩ := quiet.tasks t ht
    rw [← hrev]
    exact (announcing.latest id revision outcome (quiet.entries _ _ _ entry)).2 t₀ ht₀
      (hid.trans own) (hu.trans settled)
  · rcases announcing.shown id revision outcome (quiet.entries _ _ _ entry) with
      pushed | ⟨t₀, ht₀, own, hrev, uri, stage⟩
    · rw [quiet.pushes]
      exact .inl pushed
    · obtain ⟨t, ht, hid, hrev', same⟩ := quiet.settled t₀ ht₀ (by rw [stage]; rfl)
      exact .inr ⟨t, ht, hid.trans own, hrev'.trans hrev, uri, same.trans stage⟩

/-- Where a parse is started of a file that no task has still to settle, all stays in place. -/
theorem starts {id : Identity} (announcing : Announcing options cache)
    (known : ∀ task ∈ cache.tasks, task.revision ≤ cache.lastRevision)
    (free : ∀ task ∈ cache.tasks, task.stage.isUnsettled = true → task.id ≠ id)
    (pushes : ∀ id, next.pushes id = cache.pushes id)
    (lastRevision : next.lastRevision = cache.lastRevision + 1)
    (tasks : next.tasks = cache.tasks ++ [⟨id, cache.lastRevision + 1, .queued, false⟩])
    (entries : ∀ id revision outcome, next.entries.get? id = some (.ready revision outcome) →
      cache.entries.get? id = some (.ready revision outcome)) : Announcing options next := by
  have members : ∀ t ∈ next.tasks,
      t ∈ cache.tasks ∨ t = ⟨id, cache.lastRevision + 1, .queued, false⟩ := by
    intro t ht
    rw [tasks] at ht
    simpa using List.mem_append.mp ht
  refine ⟨fun name push member => ?_, fun t ht unsettled push member => ?_,
    fun a ha b hb same unsettled => ?_, fun name revision outcome entry => ⟨fun push member => ?_,
      fun t ht own settled => ?_⟩, fun name revision outcome entry => ?_⟩
  · rw [pushes] at member
    rw [lastRevision]
    exact Nat.le_succ_of_le (announcing.bounded name push member)
  · rw [pushes] at member
    rcases members t ht with ht | rfl
    · exact announcing.behind t ht unsettled push member
    · exact Nat.lt_succ_of_le (announcing.bounded _ push member)
  · rcases members a ha with ha | rfl <;> rcases members b hb with hb | rfl
    · exact announcing.youngest a ha b hb same unsettled
    · exact Nat.le_succ_of_le (known a ha)
    · -- No other task of the file has still to settle the entry.
      exact absurd same.symm (free b hb unsettled)
    · exact Nat.le_refl _
  · rw [pushes] at member
    exact (announcing.latest name revision outcome (entries _ _ _ entry)).1 push member
  · rcases members t ht with ht | rfl
    · exact (announcing.latest name revision outcome (entries _ _ _ entry)).2 t ht own settled
    · cases settled
  · rw [pushes]
    rcases announcing.shown name revision outcome (entries _ _ _ entry) with
      pushed | ⟨t, ht, found⟩
    · exact .inl pushed
    · refine .inr ⟨t, ?_, found⟩
      rw [tasks]
      exact List.mem_append_left _ ht

/-- Where an outcome is stored, all stays in place. -/
theorem installs (announcing : Announcing options cache) (coherent : Coherent cache)
    (member : task ∈ cache.tasks) {uri : Option Uri} {outcome : Outcome α}
    (stage : task.stage = .parsed uri outcome) :
    Announcing options (cache.install task uri outcome) := by
  have unsettled : task.stage.isUnsettled = true := by
    rw [stage]
    rfl
  have image : ∀ t ∈ (cache.install task uri outcome).tasks,
      t = { task with stage := .installed uri outcome } ∨
        t ∈ cache.tasks ∧ t.revision ≠ task.revision :=
    fun t ht => (coherent.mem_moveTask member).mp ht
  have entries := cache.get?_install task uri outcome
  have pushes : ∀ id, (cache.install task uri outcome).pushes id = cache.pushes id :=
    pushes_congr rfl
  refine ⟨fun id push pushed => ?_, fun t ht open_ push pushed => ?_,
    fun a ha b hb same open_ => ?_, fun id revision held entry => ?_,
    fun id revision held entry => ?_⟩
  · rw [pushes] at pushed
    exact announcing.bounded id push pushed
  · rw [pushes] at pushed
    rcases image t ht with rfl | ⟨ht, -⟩
    · cases open_
    · exact announcing.behind t ht open_ push pushed
  · rcases image b hb with rfl | ⟨hb, -⟩
    · cases open_
    · -- The task that has just settled its entry was no younger before it did.
      rcases image a ha with rfl | ⟨ha, -⟩
      · exact announcing.youngest task member b hb same open_
      · exact announcing.youngest a ha b hb same open_
  · rw [entries] at entry
    split_ifs at entry with own
    · -- The task was the youngest of its file and came after all that was announced of it.
      cases entry
      subst own
      refine ⟨fun push pushed => ?_, fun t ht own settled => ?_⟩
      · rw [pushes] at pushed
        exact Nat.le_of_lt (announcing.behind task member unsettled push pushed)
      · rcases image t ht with rfl | ⟨ht, -⟩
        · exact Nat.le_refl _
        · exact announcing.youngest t ht task member own unsettled
    · refine ⟨fun push pushed => ?_, fun t ht own' settled => ?_⟩
      · rw [pushes] at pushed
        exact (announcing.latest id revision held entry).1 push pushed
      · rcases image t ht with rfl | ⟨ht, -⟩
        · exact absurd own'.symm own
        · exact (announcing.latest id revision held entry).2 t ht own' settled
  · rw [entries] at entry
    rw [pushes]
    split_ifs at entry with own
    · cases entry
      exact .inr ⟨_, (coherent.mem_moveTask member).mpr (.inl rfl), own.symm, rfl, uri, rfl⟩
    · rcases announcing.shown id revision held entry with pushed | ⟨t, ht, hid, found⟩
      · exact .inl pushed
      · refine .inr ⟨t, (coherent.mem_moveTask member).mpr (.inr ⟨ht, fun same => ?_⟩), hid, found⟩
        rw [coherent.eq_of_revision ht member same] at hid
        exact own hid.symm

/-- Where an outcome is announced, all stays in place. -/
theorem announces (announcing : Announcing env.options cache) (coherent : Coherent cache)
    (member : task ∈ cache.tasks) {uri : Option Uri} {outcome : Outcome α}
    (stage : task.stage = .installed uri outcome) (files : FileSystem) :
    Announcing env.options ((cache.report (.announced task.id task.revision uri outcome
      (Notification.announce files env.options task.id uri outcome))).dropTask task.revision) := by
  generalize hn : (cache.report (.announced task.id task.revision uri outcome
    (Notification.announce files env.options task.id uri outcome))).dropTask task.revision = next
  have kept : ∀ t, t ∈ next.tasks ↔ t ∈ cache.tasks ∧ t.revision ≠ task.revision := by
    intro t
    rw [← hn]
    exact mem_dropTask
  have pushes : ∀ id, next.pushes id = cache.pushes id ++ if task.id = id then
      [.announced task.id task.revision uri outcome
        (Notification.announce files env.options task.id uri outcome)] else [] := by
    intro id
    rw [← hn]
    exact pushes_announced ..
  have members : ∀ id, ∀ push ∈ next.pushes id,
      push ∈ cache.pushes id ∨ id = task.id ∧ push.revision = task.revision := by
    intro id push pushed
    rw [pushes] at pushed
    rcases List.mem_append.mp pushed with pushed | pushed
    · exact .inl pushed
    · split_ifs at pushed with own
      · rw [List.mem_singleton.mp pushed]
        exact .inr ⟨own.symm, rfl⟩
      · cases pushed
  have entries : next.entries = cache.entries := by rw [← hn]; rfl
  have lastRevision : next.lastRevision = cache.lastRevision := by rw [← hn]; rfl
  refine ⟨fun id push pushed => ?_, fun t ht unsettled push pushed => ?_,
    fun a ha b hb => announcing.youngest a ((kept a).mp ha).1 b ((kept b).mp hb).1,
    fun id revision held entry => ⟨fun push pushed => ?_, fun t ht => ?_⟩,
    fun id revision held entry => ?_⟩
  · rw [lastRevision]
    rcases members id push pushed with pushed | ⟨-, same⟩
    · exact announcing.bounded id push pushed
    · rw [same]
      exact coherent.revision_le member
  · obtain ⟨ht, hne⟩ := (kept t).mp ht
    rcases members t.id push pushed with pushed | ⟨own, same⟩
    · exact announcing.behind t ht unsettled push pushed
    · -- What is announced is older than the parse that is on its way.
      have older := announcing.youngest task member t ht own.symm unsettled
      omega
  · rw [entries] at entry
    have latest := announcing.latest id revision held entry
    rcases members id push pushed with pushed | ⟨own, same⟩
    · exact latest.1 push pushed
    · rw [same]
      exact latest.2 task member own.symm (by rw [stage]; rfl)
  · rw [entries] at entry
    exact (announcing.latest id revision held entry).2 t ((kept t).mp ht).1
  · rw [entries] at entry
    rw [pushes]
    rcases announcing.shown id revision held entry with
      ⟨uri', files', pushed⟩ | ⟨t, ht, hid, hrev, uri', stage'⟩
    · exact .inl ⟨uri', files', List.mem_append_left _ pushed⟩
    · by_cases same : t.revision = task.revision
      · -- The outcome at hand is the one that is announced.
        obtain rfl := coherent.eq_of_revision ht member same
        rw [stage] at stage'
        cases stage'
        rw [if_pos hid, ← hid, ← hrev]
        exact .inl ⟨uri, files, List.mem_append_right _ (List.mem_singleton.mpr rfl)⟩
      · exact .inr ⟨t, (kept t).mpr ⟨ht, same⟩, hid, hrev, uri', stage'⟩

/-- Whatever a step does, all stays in place. -/
theorem turn (announcing : Announcing env.options cache) (coherent : Coherent cache)
    (taken : Turn env cache action next) : Announcing env.options next := by
  cases taken with
  | quiet _ quiet => exact announcing.quiet quiet
  | starts _ quiet free pushes lastRevision tasks entries =>
    refine (announcing.quiet quiet).starts (fun t ht => ?_) free pushes lastRevision tasks entries
    obtain ⟨t₀, ht₀, -, hrev, -⟩ := quiet.tasks t ht
    rw [← hrev, quiet.lastRevision]
    exact coherent.revision_le ht₀
  | installs _ member stage => exact announcing.installs coherent member stage
  | announces member stage => exact announcing.announces coherent member stage _

end Announcing

/-! ## In order -/

/-- What was announced of each file was announced in order, and what has still to be announced comes
after it. -/
structure InOrder (cache : Cache α) : Prop where
  /-- The revisions that were announced are rising. -/
  rising : ∀ id, (cache.pushes id).Pairwise fun earlier later => earlier.revision < later.revision
  /-- Every task comes after all that was announced of its file. -/
  ahead : ∀ task ∈ cache.tasks, ∀ push ∈ cache.pushes task.id, push.revision < task.revision

namespace InOrder

variable {env : Environment α} {options : Options} {world : World α} {cache next : Cache α}
  {task : Task α} {action : Action}

/-- Where nothing is started, stored or announced, the order is kept. -/
theorem quiet (inOrder : InOrder cache) (quiet : Quiet cache next) : InOrder next := by
  refine ⟨fun id => ?_, fun t ht push pushed => ?_⟩
  · rw [quiet.pushes]
    exact inOrder.rising id
  · obtain ⟨t₀, ht₀, hid, hrev, -⟩ := quiet.tasks t ht
    rw [quiet.pushes, ← hid] at pushed
    rw [← hrev]
    exact inOrder.ahead t₀ ht₀ push pushed

/-- Announcing an outcome keeps the order, if no older one has still to be announced. -/
theorem announces (inOrder : InOrder cache) (announcing : Announcing options cache)
    (member : task ∈ cache.tasks) (uri : Option Uri) (outcome : Outcome α)
    (sent : List Notification)
    (first : ∀ older ∈ cache.tasks, older.id = task.id → older.stage.isUnsettled = false →
      task.revision ≤ older.revision) :
    InOrder ((cache.report (.announced task.id task.revision uri outcome sent)).dropTask
      task.revision) := by
  have pushes := cache.pushes_announced task uri outcome sent
  refine ⟨fun id => ?_, fun t ht push pushed => ?_⟩
  · rw [pushes]
    split_ifs with own
    · refine List.pairwise_append.mpr ⟨inOrder.rising id, List.pairwise_singleton _ _, ?_⟩
      intro earlier pushed later last
      rw [List.mem_singleton.mp last]
      rw [← own] at pushed
      exact inOrder.ahead task member earlier pushed
    · rw [List.append_nil]
      exact inOrder.rising id
  · obtain ⟨ht, hne⟩ := mem_dropTask.mp ht
    change t.revision ≠ task.revision at hne
    rw [pushes] at pushed
    rcases List.mem_append.mp pushed with pushed | pushed
    · exact inOrder.ahead t ht push pushed
    · split_ifs at pushed with own
      · rw [List.mem_singleton.mp pushed]
        change task.revision < t.revision
        -- A task that has still to settle its entry is the youngest of its file anyway.
        cases settled : t.stage.isUnsettled with
        | true =>
          have older := announcing.youngest task member t ht own settled
          omega
        | false =>
          have younger := first t ht own.symm settled
          omega
      · cases pushed

/-- Whatever a step does keeps the order, unless it lets a task overtake another one. -/
theorem turn (inOrder : InOrder world.cache) (announcing : Announcing options world.cache)
    (coherent : Coherent world.cache) (taken : Turn env world.cache action next)
    (patient : ¬ Overtakes world action) : InOrder next := by
  cases taken with
  | quiet _ quiet => exact inOrder.quiet quiet
  | starts _ quiet free pushes lastRevision tasks =>
    have between := inOrder.quiet quiet
    refine ⟨fun id => ?_, fun t ht push pushed => ?_⟩
    · rw [pushes]
      exact between.rising id
    · rw [pushes] at pushed
      rw [tasks] at ht
      rcases List.mem_append.mp ht with ht | ht
      · exact between.ahead t ht push pushed
      · rw [List.mem_singleton.mp ht] at pushed ⊢
        exact Nat.lt_succ_of_le ((announcing.quiet quiet).bounded _ push pushed)
  | @installs _ task uri outcome _ member stage =>
    refine ⟨fun id => ?_, fun t ht push pushed => ?_⟩
    · rw [pushes_congr rfl]
      exact inOrder.rising id
    · rw [pushes_congr rfl] at pushed
      rcases (coherent.mem_moveTask member).mp ht with rfl | ⟨ht, -⟩
      · exact inOrder.ahead task member push pushed
      · exact inOrder.ahead t ht push pushed
  | @announces task uri outcome member stage =>
    -- An older outcome of the file that was left would have been overtaken.
    refine inOrder.announces announcing member _ _ _ fun older ho own settled => ?_
    by_contra younger
    exact patient ⟨task, member, rfl, older, ho, own, Nat.lt_of_not_le younger, settled⟩

/-- Of announcements in order, one with the highest revision is the last. -/
theorem getLast?_pushes (inOrder : InOrder cache) {id : Identity} {push : Event α}
    (pushed : push ∈ cache.pushes id)
    (latest : ∀ other ∈ cache.pushes id, other.revision ≤ push.revision) :
    (cache.pushes id).getLast? = some push := by
  have rising := inOrder.rising id
  obtain ⟨before, after, split⟩ := List.append_of_mem pushed
  rw [split] at rising latest ⊢
  -- Whatever was announced after it would have a higher revision.
  cases after with
  | nil => exact List.getLast?_concat
  | cons other rest =>
    have above := List.rel_of_pairwise_cons (List.pairwise_append.mp rising).2.1 List.mem_cons_self
    have below := latest other (by simp)
    omega

end InOrder

/-! ## Out of order -/

/-- Of some file an outcome was announced after a younger one, or has still to be. -/
def OutOfOrder (cache : Cache α) : Prop :=
  ∃ id, ∃ push ∈ cache.pushes id,
    (∃ later, [push, later].Sublist (cache.pushes id) ∧ later.revision < push.revision) ∨
      ∃ task ∈ cache.tasks, task.id = id ∧ task.revision < push.revision ∧
        task.stage.isUnsettled = false

namespace OutOfOrder

variable {env : Environment α} {world : World α} {cache next : Cache α} {task : Task α}
  {action : Action}

/-- What is out of order stays so, as long as nothing is taken back and what has still to be
announced stays or is announced. -/
theorem mono (outOfOrder : OutOfOrder cache)
    (pushes : ∀ id, (cache.pushes id).Sublist (next.pushes id))
    (tasks : ∀ task ∈ cache.tasks, task.stage.isUnsettled = false →
      (∃ after ∈ next.tasks, after.id = task.id ∧ after.revision = task.revision ∧
        after.stage.isUnsettled = false) ∨
      ∃ push, push.revision = task.revision ∧
        next.pushes task.id = cache.pushes task.id ++ [push]) : OutOfOrder next := by
  obtain ⟨id, push, pushed, ⟨later, order, below⟩ | ⟨task, member, rfl, below, settled⟩⟩ :=
    outOfOrder
  · exact ⟨id, push, (pushes id).subset pushed, .inl ⟨later, order.trans (pushes id), below⟩⟩
  · refine ⟨task.id, push, (pushes _).subset pushed, ?_⟩
    rcases tasks task member settled with ⟨after, member, hid, hrev, settled⟩ | ⟨later, hrev, last⟩
    · exact .inr ⟨after, member, hid, by rwa [hrev], settled⟩
    · -- What had still to be announced is announced now, after the younger one.
      refine .inl ⟨later, ?_, by rwa [hrev]⟩
      rw [last]
      exact (List.singleton_sublist.mpr pushed).append (List.Sublist.refl [later])

/-- Whatever a step does, what is out of order stays so. -/
theorem turn (outOfOrder : OutOfOrder cache) (coherent : Coherent cache)
    (taken : Turn env cache action next) : OutOfOrder next := by
  cases taken with
  | quiet _ quiet =>
    refine outOfOrder.mono (fun id => by rw [quiet.pushes]) fun task member settled => .inl ?_
    obtain ⟨after, ha, hid, hrev, same⟩ := quiet.settled task member settled
    exact ⟨after, ha, hid, hrev, by rwa [same]⟩
  | starts _ quiet free pushes lastRevision tasks =>
    refine outOfOrder.mono (fun id => by rw [pushes, quiet.pushes])
      fun task member settled => .inl ?_
    obtain ⟨after, ha, hid, hrev, same⟩ := quiet.settled task member settled
    refine ⟨after, ?_, hid, hrev, by rwa [same]⟩
    rw [tasks]
    exact List.mem_append_left _ ha
  | @installs _ task uri outcome _ member stage =>
    refine outOfOrder.mono (fun _ => List.Sublist.refl _) fun t ht settled => .inl ?_
    refine ⟨t, (coherent.mem_moveTask member).mpr (.inr ⟨ht, fun same => ?_⟩), rfl, rfl, settled⟩
    rw [coherent.eq_of_revision ht member same, stage] at settled
    cases settled
  | @announces task uri outcome member stage =>
    generalize Notification.announce env.files env.options task.id uri outcome = sent
    refine outOfOrder.mono (fun id => ?_) fun t ht settled => ?_
    · rw [pushes_announced]
      exact List.sublist_append_left _ _
    · by_cases same : t.revision = task.revision
      · obtain rfl := coherent.eq_of_revision ht member same
        refine .inr ⟨.announced t.id t.revision uri outcome sent, rfl, ?_⟩
        rw [pushes_announced, if_pos rfl]
      · exact .inl ⟨t, mem_dropTask.mpr ⟨ht, same⟩, rfl, rfl, settled⟩

/-- A task that overtakes another one puts the announcements out of order. -/
theorem of_overtakes (coherent : Coherent world.cache) (taken : Turn env world.cache action next)
    (overtakes : Overtakes world action) : OutOfOrder next := by
  match action, overtakes with
  | .move _ .publish, ⟨task, member, rfl, older, ho, own, below, settled⟩ =>
  generalize hr : task.revision = revision at taken
  cases taken with
  | quiet other | starts other | installs other => exact absurd rfl (other _)
  | @announces found uri outcome hf stage =>
    obtain rfl := coherent.eq_of_revision member hf hr
    generalize Notification.announce env.files env.options task.id uri outcome = sent
    refine ⟨task.id, .announced task.id task.revision uri outcome sent, ?_,
      .inr ⟨older, mem_dropTask.mpr ⟨ho, Nat.ne_of_lt below⟩, own, below, settled⟩⟩
    rw [pushes_announced, if_pos rfl]
    exact List.mem_append_right _ (List.mem_singleton.mpr rfl)

/-- Once everything was announced, it can be seen that it was out of order. -/
theorem not_rising (outOfOrder : OutOfOrder cache)
    (ended : ∀ task ∈ cache.tasks, task.stage.isUnsettled = true) :
    ¬ ∀ id, (cache.pushes id).Pairwise fun earlier later => earlier.revision < later.revision := by
  intro rising
  obtain ⟨id, push, -, ⟨later, order, below⟩ | ⟨task, member, -, -, settled⟩⟩ := outOfOrder
  · have above := List.rel_of_pairwise_cons ((rising id).sublist order) List.mem_cons_self
    omega
  · rw [ended task member] at settled
    cases settled

end OutOfOrder

end Cache

/-! ## What clients see -/

/-- What the client is told of an outcome are the diagnostics of a full report on it, sent to the
URI under which the document was opened or else to that of the file. -/
theorem Notification.diagnostics_mem_announce {files : FileSystem} {options : Options}
    {id : Identity} {uri : Option Uri} {outcome : Outcome α} {revision : Nat} {address : Uri}
    {items : List Diagnostic} :
    .diagnostics address items ∈ announce files options id uri outcome ↔
      (uri <|> id.toUri? files) = some address ∧
        Report.ofOutcome options.diagnosticSource revision outcome none =
          .full (Report.nameOf revision) items := by
  rw [Report.ofOutcome, if_neg nofun, Report.full.injEq]
  unfold announce
  cases uri <|> id.toUri? files with
  | none => simp
  | some found =>
    simp only [List.mem_cons, Notification.diagnostics.injEq, Option.some_inj, true_and]
    split_ifs <;> simp [eq_comm]

section

variable {env : Environment α} {world : World α} {trail : List (World α × Action)}

/-- Along every run the announcements fit the tasks and the outcomes at hand. -/
theorem Run.announcing (run : Run env world trail) : world.cache.Announcing env.options := by
  induction run with
  | start files => exact .empty _
  | @step world _ _ run action taken ih =>
    have before : world.cache.Announcing (env.on world.files).options := ih
    exact before.turn run.coherent.cache (World.turn_of_step run.coherent taken)

/-- Along a run on which no task overtakes another one, the announcements are in order. -/
theorem Run.inOrder (run : Run env world trail)
    (patient : ∀ moment ∈ trail, ¬ Overtakes moment.1 moment.2) : world.cache.InOrder := by
  induction run with
  | start files => exact ⟨fun _ => List.Pairwise.nil, nofun⟩
  | step run action taken ih =>
    have before := ih fun moment past => patient moment (List.mem_cons_of_mem _ past)
    exact before.turn run.announcing run.coherent.cache (World.turn_of_step run.coherent taken)
      (patient _ List.mem_cons_self)

/-- Along a run on which a task overtakes another one, they are out of order from then on. -/
theorem Run.outOfOrder (run : Run env world trail) {moment : World α × Action}
    (member : moment ∈ trail) (overtakes : Overtakes moment.1 moment.2) :
    world.cache.OutOfOrder := by
  induction run with
  | start files => cases member
  | step run action taken ih =>
    have turn := World.turn_of_step run.coherent taken
    rcases List.mem_cons.mp member with rfl | member
    · exact .of_overtakes run.coherent.cache turn overtakes
    · exact (ih member).turn run.coherent.cache turn

/-- An outcome at hand was the last to be announced, once nothing is left to be announced and if all
was in order. -/
theorem Run.getLast?_pushes (run : Run env world trail) (inOrder : world.cache.InOrder)
    (ended : ∀ task ∈ world.cache.tasks, task.stage.isUnsettled = true) {id : Identity}
    {snapshot : Snapshot α} (cached : world.cache.cached? id = some snapshot) :
    ∃ uri files, (world.cache.pushes id).getLast? =
      some (.announced id snapshot.revision uri snapshot.outcome
        (Notification.announce files env.options id uri snapshot.outcome)) := by
  have entry := cached?_eq_some.mp cached
  have announcing := run.announcing
  rcases announcing.shown _ _ _ entry with
    ⟨uri, files, pushed⟩ | ⟨task, member, -, -, uri, stage⟩
  · exact ⟨uri, files, inOrder.getLast?_pushes pushed (announcing.latest _ _ _ entry).1⟩
  · have unsettled := ended task member
    rw [stage] at unsettled
    cases unsettled

/-- However the steps of clients and tasks follow each other: as long as no task announces its
outcome while an older one of the same file has still to be announced, the revisions that the client
is told of for each file are strictly rising. When no task is left that somebody may wait for, they
are so only then; and then the last that the client was told of a file for which an outcome is held
is that outcome, with the diagnostics that a report on it would give. Every open document has such
an outcome if calls followed each other, parses may be started and no parse was revived. -/
theorem announced_in_order_iff (run : Run env world trail) :
    ((∀ moment ∈ trail, ¬ Overtakes moment.1 moment.2) → ∀ id,
      (world.cache.pushes id).Pairwise fun earlier later => earlier.revision < later.revision) ∧
    ((∀ task ∈ world.cache.tasks, task.stage.isAwaited = false) →
      ((∀ id, (world.cache.pushes id).Pairwise fun earlier later =>
        earlier.revision < later.revision) ↔
          ∀ moment ∈ trail, ¬ Overtakes moment.1 moment.2) ∧
      ((∀ moment ∈ trail, ¬ Overtakes moment.1 moment.2) → ∀ id snapshot,
        world.cache.cached? id = some snapshot → ∃ uri files sent,
          (world.cache.pushes id).getLast? =
            some (.announced id snapshot.revision uri snapshot.outcome sent) ∧
          ∀ address items, .diagnostics address items ∈ sent ↔
            (uri <|> id.toUri? files) = some address ∧
              Report.ofOutcome env.options.diagnosticSource snapshot.revision snapshot.outcome
                none = .full (Report.nameOf snapshot.revision) items) ∧
      (Serial trail → world.cache.accepting = true → world.calls = [] →
        (∀ moment ∈ trail, ¬ Revives moment.1 moment.2) → ∀ id, world.cache.isOpen id = true →
          ∃ snapshot, world.cache.cached? id = some snapshot)) := by
  have coherent := run.coherent.cache
  refine ⟨fun patient => (run.inOrder patient).rising, fun quiet => ?_⟩
  -- The tasks that are left are parsers which nobody waits for, and these announce nothing.
  have ended : ∀ task ∈ world.cache.tasks, task.stage.isUnsettled = true := by
    intro task member
    have left := quiet task member
    generalize task.stage = stage at left
    cases stage with
    | orphaned => rfl
    | queued | admitted | reading | parsing | parsed | condemned | installed => cases left
  refine ⟨⟨fun rising moment member overtakes => ?_, fun patient => (run.inOrder patient).rising⟩,
    fun patient id snapshot cached => ?_, fun serial accepting none sober id opened => ?_⟩
  · exact (run.outOfOrder member overtakes).not_rising ended rising
  · obtain ⟨uri, files, last⟩ := run.getLast?_pushes (run.inOrder patient) ended cached
    exact ⟨uri, files, _, last, fun _ _ => Notification.diagnostics_mem_announce⟩
  · have steady := run.steady serial accepting sober
    rcases steady.assures coherent (run.orderly serial accepting) none opened with
      ⟨revision, outcome, entry⟩ | ⟨revision, dirty, closed, entry, -⟩
    · exact ⟨⟨revision, outcome⟩, cached?_eq_some.mpr entry⟩
    · -- The task of a parse on its way would be one that somebody may wait for.
      obtain ⟨task, member, -, -, -, alive⟩ := coherent.marked _ _ _ _ entry
      have awaited := coherent.awaited task member alive
      rw [quiet task member] at awaited
      cases awaited

/-- Two texts of a document are parsed and announced one after the other. -/
theorem announced_in_order_of_two_texts : ∃ world trail, Run (Trial.env 1) world trail ∧
    (∀ task ∈ world.cache.tasks, task.stage.isAwaited = false) ∧
    (∀ moment ∈ trail, ¬ Overtakes moment.1 moment.2) ∧
    (world.cache.pushes Trial.file).map Event.revision = [1, 2] ∧
    world.cache.cached? Trial.file = some ⟨2, .success () []⟩ ∧
    ∃ uri sent, (world.cache.pushes Trial.file).getLast? =
      some (.announced Trial.file 2 uri (.success () []) sent) := by
  obtain ⟨world, trail, run, quiet, patient, order, cached⟩ : ∃ world trail,
      Run (Trial.env 1) world trail ∧
      (∀ task ∈ world.cache.tasks, task.stage.isAwaited = false) ∧
      (∀ moment ∈ trail, ¬ Overtakes moment.1 moment.2) ∧
      (world.cache.pushes Trial.file).map Event.revision = [1, 2] ∧
      world.cache.cached? Trial.file = some ⟨2, .success () []⟩ :=
    ⟨_, _, (Trial.start 1).follow
      [.update Trial.file (Trial.document "unsound"), .proceed (.revise Trial.file false),
        .proceed (.request Trial.file), .move 1 .assignWorker, .move 1 .readDocument,
        .move 1 .launch, .move 1 .complete, .move 1 .store,
        .update Trial.file (Trial.document "sound"), .proceed (.revise Trial.file false),
        .proceed (.request Trial.file), .move 2 .assignWorker, .move 1 .publish,
        .move 2 .readDocument, .move 2 .launch, .move 2 .complete, .move 2 .store,
        .move 2 .publish] rfl, by decide, by decide, rfl, rfl⟩
  obtain ⟨uri, _, sent, last, -⟩ :=
    ((announced_in_order_iff run).2 quiet).2.1 patient Trial.file _ cached
  exact ⟨world, trail, run, quiet, patient, order, cached, uri, sent, last⟩

/-- A text is changed after the outcome of the one before it was stored, and its outcome is
announced first: in the end the client has the problems of the first text, though the second one is
open and sound, and no task is left. -/
theorem announcements_out_of_order : ∃ world trail, Run (Trial.env 1) world trail ∧
    Serial trail ∧ world.cache.accepting = true ∧ world.calls = [] ∧ world.cache.tasks = [] ∧
    world.cache.documents.get? Trial.file = some (Trial.document "sound") ∧
    world.cache.cached? Trial.file = some ⟨2, .success () []⟩ ∧
    (world.cache.pushes Trial.file).map Event.revision = [2, 1] ∧
    ∃ uri sent, (world.cache.pushes Trial.file).getLast? =
      some (.announced Trial.file 1 uri (.failure [Problem.unlocated "unsound"]) sent) :=
  ⟨_, _, (Trial.start 1).follow
    [.update Trial.file (Trial.document "unsound"), .proceed (.revise Trial.file false),
      .proceed (.request Trial.file), .move 1 .assignWorker, .move 1 .readDocument, .move 1 .launch,
      .move 1 .complete, .move 1 .store, .update Trial.file (Trial.document "sound"),
      .proceed (.revise Trial.file false), .proceed (.request Trial.file), .move 2 .assignWorker,
      .move 2 .readDocument, .move 2 .launch, .move 2 .complete, .move 2 .store, .move 2 .publish,
      .move 1 .publish] rfl, by decide, rfl, rfl, rfl, rfl, rfl, rfl, _, _, rfl⟩

end

end DiagnosticServer
