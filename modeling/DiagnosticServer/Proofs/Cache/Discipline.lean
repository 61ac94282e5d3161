import Mathlib.Data.List.Nodup
import Mathlib.Data.List.Perm.Basic
import DiagnosticServer.Proofs.Cache.Steps

/-!
# One parse at a time

The entries, the tasks and the revisions of a cache fit together: the mark of a parse in an entry
and the task that has still to settle that entry come and go together, and every parse has a
revision above those before it. `Coherent` says so, and every step of a run keeps it, whoever takes
it and whatever else is half done. `one_parse_at_a_time` draws the conclusions.

Since no two tasks have one revision, `Run.move` can show that whatever a task does is a step of a
run.

A task that was told to stop is the exception: its entry is gone, and it may still be running. No
parse is started after that, so it cannot meet another one of its file.
-/

namespace DiagnosticServer

variable {α : Type}

/-- Whether a task in this stage has still to settle its entry, or at least its parser is running.
-/
def Stage.isUnsettled : Stage α → Bool
  | .installed _ _ => false
  | .queued | .admitted | .reading _ | .parsing _ _ | .parsed _ _ | .condemned | .orphaned _ => true

/-- A running parser belongs to a task that has still to settle its entry. -/
theorem Stage.isUnsettled_of_isRunning {stage : Stage α} (running : stage.isRunning = true) :
    stage.isUnsettled = true := by
  cases stage <;> first | rfl | cases running

/-- Where revisions rise, each belongs to parses of one file. -/
theorem eq_of_rising {parses : List (Identity × Nat)}
    (rising : parses.Pairwise fun earlier later => earlier.2 < later.2) {revision : Nat}
    {first second : Identity} (one : (first, revision) ∈ parses)
    (other : (second, revision) ∈ parses) : first = second := by
  have distinct : (parses.map Prod.snd).Nodup :=
    List.pairwise_map.mpr (rising.imp Nat.ne_of_lt)
  have same := List.inj_on_of_nodup_map distinct one other rfl
  exact congrArg Prod.fst same

/-! ## Lists whose members have different keys -/

section

variable {β γ : Type} [DecidableEq γ] {key : β → γ} {members : List β} {member : β}

/-- A member is found by its key. -/
theorem find?_key (distinct : (members.map key).Nodup) (found : member ∈ members) :
    (members.find? fun other => key other = key member) = some member := by
  obtain ⟨first, hf⟩ : ∃ first, (members.find? fun other => key other = key member) = some first :=
    Option.isSome_iff_exists.mp (List.find?_isSome.mpr ⟨member, found, decide_eq_true rfl⟩)
  rw [hf, List.inj_on_of_nodup_map distinct (List.mem_of_find?_eq_some hf) found
    (by simpa using List.find?_some hf)]

/-- The members are one of them and those whose keys are other than its own. -/
theorem perm_key (distinct : (members.map key).Nodup) (found : member ∈ members) :
    members.Perm (member :: members.filter fun other => key other ≠ key member) := by
  induction members with
  | nil => cases found
  | cons first rest ih =>
    obtain ⟨apart, distinct⟩ := List.nodup_cons.mp distinct
    rcases List.mem_cons.mp found with rfl | found
    · have others : (rest.filter fun other => key other ≠ key member) = rest :=
        List.filter_eq_self.mpr fun other left =>
          decide_eq_true fun same => apart (List.mem_map.mpr ⟨other, left, same⟩)
      rw [List.filter_cons_of_neg (by simp), others]
    · have other : key first ≠ key member :=
        fun same => apart (List.mem_map.mpr ⟨member, found, same.symm⟩)
      rw [List.filter_cons_of_pos (by simpa using other)]
      exact ((ih distinct found).cons first).trans (.swap ..)

/-- When a member is changed, the others stay. -/
theorem perm_change (distinct : (members.map key).Nodup) (found : member ∈ members)
    (change : β → β) :
    (members.map fun other => if key other = key member then change other else other).Perm
      (change member :: members.filter fun other => key other ≠ key member) := by
  have changed := (perm_key distinct found).map fun other =>
    if key other = key member then change other else other
  rw [List.map_cons, if_pos rfl] at changed
  have same : ((members.filter fun other => key other ≠ key member).map fun other =>
      if key other = key member then change other else other) =
      members.filter fun other => key other ≠ key member := by
    refine (List.map_congr_left fun other left => if_neg ?_).trans (List.map_id _)
    exact of_decide_eq_true (List.mem_filter.mp left).2
  rwa [same] at changed

end

namespace Cache

/-- The entries, the tasks and the revisions fit together. -/
structure Coherent (cache : Cache α) : Prop where
  /-- Every parse has a revision above those of the parses started before it. -/
  rising : cache.started.Pairwise fun earlier later => earlier.2 < later.2
  /-- The last revision is the largest. -/
  bounded : ∀ parse ∈ cache.started, parse.2 ≤ cache.lastRevision
  /-- Every task was started. -/
  registered : ∀ task ∈ cache.tasks, (task.id, task.revision) ∈ cache.started
  /-- The tasks stand in the order of their revisions. -/
  ordered : cache.tasks.Pairwise fun earlier later => earlier.revision < later.revision
  /-- No two tasks have still to settle the entry of one file. -/
  sole : ∀ a ∈ cache.tasks, ∀ b ∈ cache.tasks, a.stage.isUnsettled = true →
    b.stage.isUnsettled = true → a.id = b.id → a.revision = b.revision
  /-- The mark of a parse belongs to a task that has still to settle it. -/
  marked : ∀ id revision dirty closed,
    cache.entries.get? id = some (.pending revision dirty closed) →
    ∃ task ∈ cache.tasks, task.id = id ∧ task.revision = revision ∧
      task.stage.isUnsettled = true ∧ task.aborted = false
  /-- A task that has still to settle its entry has its mark there, unless it was told to stop. -/
  holds : ∀ task ∈ cache.tasks, task.stage.isUnsettled = true → task.aborted = false →
    ∃ dirty closed, cache.entries.get? task.id = some (.pending task.revision dirty closed)
  /-- No task is told to stop while parses may be started. -/
  unstopped : cache.accepting = true → ∀ task ∈ cache.tasks, task.aborted = false
  /-- A parser is left behind only by a task that was told to stop. -/
  awaited : ∀ task ∈ cache.tasks, task.aborted = false → task.stage.isAwaited = true

namespace Coherent

variable {cache other : Cache α} {task : Task α}

/-- Only the entries, the tasks, the revisions and whether parses may be started matter. -/
theorem congr (coherent : Coherent cache) (entries : other.entries = cache.entries)
    (tasks : other.tasks = cache.tasks) (started : other.started = cache.started)
    (lastRevision : other.lastRevision = cache.lastRevision)
    (accepting : other.accepting = true → cache.accepting = true) : Coherent other := by
  obtain ⟨rising, bounded, registered, ordered, sole, marked, holds, unstopped, awaited⟩ := coherent
  refine ⟨?_, ?_, ?_, ?_, ?_, ?_, ?_, fun h => ?_, ?_⟩
  · rwa [started]
  · rwa [started, lastRevision]
  · rwa [tasks, started]
  · rwa [tasks]
  · rwa [tasks]
  · rwa [entries, tasks]
  · rwa [entries, tasks]
  · rw [tasks]
    exact unstopped (accepting h)
  · rwa [tasks]

/-- The tasks have different revisions. -/
theorem distinct (coherent : Coherent cache) : (cache.tasks.map Task.revision).Nodup :=
  List.pairwise_map.mpr (coherent.ordered.imp Nat.ne_of_lt)

/-- A revision belongs to one task. -/
theorem eq_of_revision (coherent : Coherent cache) {a b : Task α} (ha : a ∈ cache.tasks)
    (hb : b ∈ cache.tasks) (same : a.revision = b.revision) : a = b :=
  List.inj_on_of_nodup_map coherent.distinct ha hb same

/-- No task has a revision above the last one. -/
theorem revision_le (coherent : Coherent cache) (member : task ∈ cache.tasks) :
    task.revision ≤ cache.lastRevision :=
  coherent.bounded _ (coherent.registered task member)

/-- At the start everything fits. -/
theorem empty : Coherent (Cache.empty : Cache α) where
  rising := List.Pairwise.nil
  bounded := nofun
  registered := nofun
  ordered := List.Pairwise.nil
  sole := nofun
  marked := nofun
  holds := nofun
  unstopped := nofun
  awaited := nofun

/-- The mark of a parse belongs to no task that has settled its entry or was told to stop. -/
theorem mark_ne (coherent : Coherent cache) (member : task ∈ cache.tasks)
    (ended : task.stage.isUnsettled = false ∨ task.aborted = true) (dirty closed : Bool) :
    cache.entries.get? task.id ≠ some (.pending task.revision dirty closed) := by
  intro entry
  -- The mark belongs to a task of this revision, which is the task itself.
  obtain ⟨t, ht, -, hrev, hu, hn⟩ := coherent.marked _ _ _ _ entry
  rw [coherent.eq_of_revision ht member hrev] at hu hn
  rcases ended with settled | aborted
  · rw [settled] at hu
    cases hu
  · rw [aborted] at hn
    cases hn

/-- The mark of a task is the entry of its own file. -/
theorem eq_of_mark (coherent : Coherent cache) (member : task ∈ cache.tasks) {id : Identity}
    {dirty closed : Bool}
    (entry : cache.entries.get? id = some (.pending task.revision dirty closed)) :
    task.id = id := by
  obtain ⟨t, ht, hid, hrev, -, -⟩ := coherent.marked _ _ _ _ entry
  rw [← hid, coherent.eq_of_revision ht member hrev]

/-! ## Changing and dropping tasks -/

/-- Changing a task leaves the others as they are. -/
theorem mem_map_task (coherent : Coherent cache) (member : task ∈ cache.tasks)
    (change : Task α → Task α) {t : Task α} :
    t ∈ cache.tasks.map (fun t => if t.revision = task.revision then change t else t) ↔
      t = change task ∨ t ∈ cache.tasks ∧ t.revision ≠ task.revision := by
  rw [(perm_change coherent.distinct member change).mem_iff]
  simp [List.mem_filter]

/-- Moving a task to another stage leaves the others as they are. -/
theorem mem_moveTask (coherent : Coherent cache) (member : task ∈ cache.tasks) {stage : Stage α}
    {t : Task α} : t ∈ (cache.moveTask task.revision stage).tasks ↔
      t = { task with stage := stage } ∨ t ∈ cache.tasks ∧ t.revision ≠ task.revision :=
  coherent.mem_map_task member fun t => { t with stage := stage }

/-- Changing a task that had still to settle its entry keeps all in place, if afterwards the entry
is the mark of its parse exactly as long as it still has to. -/
theorem changeTask (coherent : Coherent cache) (member : task ∈ cache.tasks)
    (change : Task α → Task α) (same : ∀ t, (change t).id = t.id ∧ (change t).revision = t.revision)
    (unsettled : task.stage.isUnsettled = true) {entries : Table Identity (Entry α)}
    (elsewhere : ∀ id, id ≠ task.id → entries.get? id = cache.entries.get? id)
    (marked : ∀ revision dirty closed,
      entries.get? task.id = some (.pending revision dirty closed) → revision = task.revision ∧
        (change task).stage.isUnsettled = true ∧ (change task).aborted = false)
    (holds : (change task).stage.isUnsettled = true → (change task).aborted = false →
      ∃ dirty closed, entries.get? task.id = some (.pending task.revision dirty closed))
    (unstopped : cache.accepting = true → (change task).aborted = false)
    (awaited : (change task).aborted = false → (change task).stage.isAwaited = true) :
    Coherent { cache with
      entries := entries
      tasks := cache.tasks.map fun t => if t.revision = task.revision then change t else t } := by
  have image := fun t => (coherent.mem_map_task member change (t := t)).mp
  have revisions : ∀ t,
      (if t.revision = task.revision then change t else t).revision = t.revision := by
    intro t
    split_ifs
    · exact (same t).2
    · rfl
  obtain ⟨sameId, sameRevision⟩ := same task
  refine ⟨coherent.rising, coherent.bounded, ?_, ?_, ?_, ?_, ?_, ?_, ?_⟩
  · -- The task is on record under its old name.
    intro t ht
    rcases image t ht with rfl | ⟨ht, -⟩
    · rw [sameId, sameRevision]
      exact coherent.registered task member
    · exact coherent.registered t ht
  · refine List.pairwise_map.mpr (coherent.ordered.imp fun below => ?_)
    rw [revisions, revisions]
    exact below
  · -- The task had still to settle its entry before, so no other task of its file has.
    intro a ha b hb hua hub hab
    rcases image a ha with rfl | ⟨ha, -⟩ <;> rcases image b hb with rfl | ⟨hb, -⟩
    · rfl
    · rw [sameId] at hab
      rw [sameRevision]
      exact coherent.sole task member b hb unsettled hub hab
    · rw [sameId] at hab
      rw [sameRevision]
      exact coherent.sole a ha task member hua unsettled hab
    · exact coherent.sole a ha b hb hua hub hab
  · intro id revision dirty closed entry
    by_cases own : id = task.id
    · subst own
      obtain ⟨rfl, hu, hn⟩ := marked revision dirty closed entry
      exact ⟨_, (coherent.mem_map_task member change).mpr (.inl rfl), sameId, sameRevision, hu, hn⟩
    · -- The mark of another file belongs to another task.
      rw [elsewhere id own] at entry
      obtain ⟨t, ht, hid, hrev, hu, hn⟩ := coherent.marked id revision dirty closed entry
      have hne : t.revision ≠ task.revision := by
        intro h
        rw [← hid, coherent.eq_of_revision ht member h] at own
        exact own rfl
      exact ⟨t, (coherent.mem_map_task member change).mpr (.inr ⟨ht, hne⟩), hid, hrev, hu, hn⟩
  · -- Another task of the same file would have the same revision.
    intro t ht hu hn
    rcases image t ht with rfl | ⟨ht, hne⟩
    · rw [sameId, sameRevision]
      exact holds hu hn
    · have other : t.id ≠ task.id := fun h => hne (coherent.sole t ht task member hu unsettled h)
      change ∃ dirty closed, entries.get? t.id = _
      rw [elsewhere t.id other]
      exact coherent.holds t ht hu hn
  · intro accepting t ht
    rcases image t ht with rfl | ⟨ht, -⟩
    · exact unstopped accepting
    · exact coherent.unstopped accepting t ht
  · intro t ht hn
    rcases image t ht with rfl | ⟨ht, -⟩
    · exact awaited hn
    · exact coherent.awaited t ht hn

/-- Moving a task to another stage in which its entry is still to be settled keeps all in place. -/
theorem moveTask (coherent : Coherent cache) (member : task ∈ cache.tasks) (stage : Stage α)
    (before : task.stage.isUnsettled = true) (after : stage.isUnsettled = true)
    (awaited : task.aborted = false → stage.isAwaited = true) :
    Coherent (cache.moveTask task.revision stage) := by
  refine coherent.changeTask member (fun t => { t with stage := stage }) (fun _ => ⟨rfl, rfl⟩)
    before (fun _ _ => rfl) (fun revision dirty closed entry => ?_)
    (fun _ alive => coherent.holds task member before alive)
    (fun accepting => coherent.unstopped accepting task member) awaited
  -- Whoever has the mark of this file has still to settle it, and only this task has.
  obtain ⟨t, ht, hid, rfl, hu, hn⟩ := coherent.marked _ _ _ _ entry
  have own := coherent.sole t ht task member hu before hid
  rw [coherent.eq_of_revision ht member own] at hn
  exact ⟨own, after, hn⟩

/-- Storing an outcome settles the entry and keeps all in place. -/
theorem install (coherent : Coherent cache) (member : task ∈ cache.tasks)
    (unsettled : task.stage.isUnsettled = true) (uri : Option Uri) (outcome : Outcome α) :
    Coherent (cache.install task uri outcome) := by
  have changed := coherent.changeTask member
    (fun t => { t with stage := .installed uri outcome }) (fun _ => ⟨rfl, rfl⟩) unsettled
    (fun id other => (cache.get?_install task uri outcome id).trans (if_neg other))
    (fun revision dirty closed entry => by rw [get?_install, if_pos rfl] at entry; cases entry)
    nofun (fun accepting => coherent.unstopped accepting task member) fun _ => rfl
  exact changed.congr rfl rfl rfl rfl id

/-- Giving a parse up takes the mark and tells the task to stop, and keeps all in place. -/
theorem abandon (coherent : Coherent cache) {id : Identity} {revision : Nat} {dirty closed : Bool}
    (entry : cache.entries.get? id = some (.pending revision dirty closed))
    (accepting : cache.accepting = false) :
    Coherent { cache with
      entries := cache.entries.erase id
      tasks := cache.tasks.map fun task =>
        if task.revision = revision then { task with aborted := true } else task } := by
  obtain ⟨holder, member, rfl, rfl, unsettled, -⟩ := coherent.marked id revision dirty closed entry
  have entries : ∀ id, (cache.entries.erase holder.id).get? id =
      if id = holder.id then none else cache.entries.get? id := fun id => Table.get?_erase ..
  exact coherent.changeTask member (fun t => { t with aborted := true }) (fun _ => ⟨rfl, rfl⟩)
    unsettled (fun id other => (entries id).trans (if_neg other))
    (fun revision dirty closed entry => by rw [entries, if_pos rfl] at entry; cases entry)
    (fun _ => nofun) (fun h => by rw [accepting] at h; cases h) nofun

/-- Dropping a task keeps all in place, if its mark goes and the other marks stay. -/
theorem removeTask (coherent : Coherent cache) {entries : Table Identity (Entry α)}
    (marks : ∀ id revision,
      (∃ dirty closed, entries.get? id = some (.pending revision dirty closed)) ↔
        revision ≠ task.revision ∧
          ∃ dirty closed, cache.entries.get? id = some (.pending revision dirty closed)) :
    Coherent ({ cache with entries := entries }.dropTask task.revision) := by
  have kept : ∀ t ∈ ({ cache with entries := entries }.dropTask task.revision).tasks,
      t ∈ cache.tasks ∧ t.revision ≠ task.revision := fun t ht => mem_dropTask.mp ht
  refine ⟨coherent.rising, coherent.bounded, fun t ht => coherent.registered t (kept t ht).1,
    coherent.ordered.filter _, fun a ha b hb => coherent.sole a (kept a ha).1 b (kept b hb).1,
    fun id revision dirty closed entry => ?_, fun t ht hu hn => ?_,
    fun accepting t ht => coherent.unstopped accepting t (kept t ht).1,
    fun t ht => coherent.awaited t (kept t ht).1⟩
  · obtain ⟨other, dirty', closed', before⟩ := (marks id revision).mp ⟨dirty, closed, entry⟩
    obtain ⟨t, ht, hid, rfl, hu, hn⟩ := coherent.marked id revision dirty' closed' before
    exact ⟨t, mem_dropTask.mpr ⟨ht, other⟩, hid, rfl, hu, hn⟩
  · obtain ⟨ht, hne⟩ := kept t ht
    exact (marks t.id t.revision).mpr ⟨hne, coherent.holds t ht hu hn⟩

/-- Dropping a task that has no mark keeps all in place. -/
theorem dropTask (coherent : Coherent cache) (member : task ∈ cache.tasks)
    (free : ∀ dirty closed,
      cache.entries.get? task.id ≠ some (.pending task.revision dirty closed)) :
    Coherent (cache.dropTask task.revision) := by
  refine coherent.removeTask fun id revision => ⟨fun mark => ⟨?_, mark⟩, fun mark => mark.2⟩
  rintro rfl
  obtain ⟨dirty, closed, entry⟩ := mark
  obtain rfl := coherent.eq_of_mark member entry
  exact free dirty closed entry

/-- Dropping a task together with its mark keeps all in place. -/
theorem discard (coherent : Coherent cache) (member : task ∈ cache.tasks) :
    Coherent ((cache.discardPending task.id task.revision).dropTask task.revision) := by
  by_cases own : ∃ dirty closed,
      cache.entries.get? task.id = some (.pending task.revision dirty closed)
  · obtain ⟨dirty, closed, entry⟩ := own
    rw [discardPending_of_mark entry]
    refine coherent.removeTask fun id revision => ?_
    rw [Table.get?_erase]
    split_ifs with same
    · -- The mark of the file was that of the task, so there is no other one.
      subst same
      rw [entry]
      constructor
      · rintro ⟨_, _, ⟨⟩⟩
      · rintro ⟨other, _, _, ⟨⟩⟩
        exact absurd rfl other
    · refine ⟨fun mark => ⟨?_, mark⟩, fun mark => mark.2⟩
      rintro rfl
      obtain ⟨_, _, entry'⟩ := mark
      exact same (coherent.eq_of_mark member entry').symm
  · have free : ∀ dirty closed,
        cache.entries.get? task.id ≠ some (.pending task.revision dirty closed) :=
      fun dirty closed entry => own ⟨dirty, closed, entry⟩
    rw [discardPending_of_no_mark free]
    exact coherent.dropTask member free

/-! ## Starting parses and changing entries -/

/-- Starting a parse of a file that no task has still to settle keeps all in place. -/
theorem schedule (coherent : Coherent cache) {id : Identity}
    (free : ∀ task ∈ cache.tasks, task.stage.isUnsettled = true → task.id ≠ id)
    (accepting : cache.accepting = true) : Coherent (cache.schedule id) := by
  have members : ∀ t ∈ (cache.schedule id).tasks,
      t ∈ cache.tasks ∨ t = ⟨id, cache.lastRevision + 1, .queued, false⟩ := by
    intro t ht
    simpa using List.mem_append.mp ht
  refine ⟨?_, ?_, ?_, ?_, ?_, ?_, ?_, ?_, ?_⟩
  · -- The new revision is above the last one, and so above all on record.
    refine List.pairwise_append.mpr ⟨coherent.rising, List.pairwise_singleton _ _, ?_⟩
    intro earlier he later hl
    rw [List.mem_singleton.mp hl]
    exact Nat.lt_succ_of_le (coherent.bounded earlier he)
  · intro parse hp
    rcases List.mem_append.mp hp with hp | hp
    · exact Nat.le_succ_of_le (coherent.bounded parse hp)
    · rw [List.mem_singleton.mp hp]
      exact Nat.le_refl _
  · intro t ht
    rcases members t ht with ht | rfl
    · exact List.mem_append_left _ (coherent.registered t ht)
    · exact List.mem_append_right _ (List.mem_singleton.mpr rfl)
  · refine List.pairwise_append.mpr ⟨coherent.ordered, List.pairwise_singleton _ _, ?_⟩
    intro earlier he later hl
    rw [List.mem_singleton.mp hl]
    exact Nat.lt_succ_of_le (coherent.revision_le he)
  · -- The new task is the only one of its file that has still to settle the entry.
    intro a ha b hb hua hub hab
    rcases members a ha with ha | rfl <;> rcases members b hb with hb | rfl
    · exact coherent.sole a ha b hb hua hub hab
    · exact absurd hab (free a ha hua)
    · exact absurd hab.symm (free b hb hub)
    · rfl
  · intro id' revision dirty closed entry
    rw [get?_schedule] at entry
    split_ifs at entry with same
    · cases entry
      exact ⟨_, List.mem_append_right _ (List.mem_singleton.mpr rfl), same.symm, rfl, rfl, rfl⟩
    · obtain ⟨t, ht, found⟩ := coherent.marked id' revision dirty closed entry
      exact ⟨t, List.mem_append_left _ ht, found⟩
  · -- No other task had its mark where that of the new one is put.
    intro t ht hu hn
    rw [get?_schedule]
    rcases members t ht with ht | rfl
    · rw [if_neg (free t ht hu)]
      exact coherent.holds t ht hu hn
    · exact ⟨false, false, if_pos rfl⟩
  · intro _ t ht
    rcases members t ht with ht | rfl
    · exact coherent.unstopped accepting t ht
    · rfl
  · intro t ht hn
    rcases members t ht with ht | rfl
    · exact coherent.awaited t ht hn
    · rfl

/-- While parses may be started, a file of which none is on its way has no task. -/
theorem free_of_no_mark (coherent : Coherent cache) (accepting : cache.accepting = true)
    {id : Identity} (free : ∀ revision dirty closed,
      cache.entries.get? id ≠ some (.pending revision dirty closed)) :
    ∀ task ∈ cache.tasks, task.stage.isUnsettled = true → task.id ≠ id := by
  rintro task member unsettled rfl
  obtain ⟨dirty, closed, entry⟩ :=
    coherent.holds task member unsettled (coherent.unstopped accepting task member)
  exact free _ _ _ entry

/-- A task in whose place another parse is put may as well be dropped before that one is started. -/
theorem tasks_of_supersede (coherent : Coherent cache) (member : task ∈ cache.tasks) :
    ((cache.schedule task.id).retire task).tasks =
      (cache.dropTask task.revision).tasks ++
        [⟨task.id, cache.lastRevision + 1, .queued, false⟩] := by
  have known := coherent.revision_le member
  have fresh : cache.lastRevision + 1 ≠ task.revision := by omega
  simp [Cache.schedule, retire, finishTask, Cache.dropTask, List.filter_append, fresh]

/-- Putting another parse in the place of a task keeps all in place: it is as if the task had
dropped its mark before the new parse was started. -/
theorem supersede (coherent : Coherent cache) (member : task ∈ cache.tasks)
    (unsettled : task.stage.isUnsettled = true) (accepting : cache.accepting = true) :
    Coherent ((cache.schedule task.id).retire task) := by
  obtain ⟨dirty, closed, entry⟩ :=
    coherent.holds task member unsettled (coherent.unstopped accepting task member)
  have dropped := coherent.discard member
  rw [discardPending_of_mark entry] at dropped
  have free : ∀ t ∈ ({ cache with entries := cache.entries.erase task.id }.dropTask
      task.revision).tasks, t.stage.isUnsettled = true → t.id ≠ task.id := by
    intro t ht hu same
    obtain ⟨ht', hne⟩ := mem_dropTask.mp ht
    exact hne (coherent.sole t ht' task member hu unsettled same)
  refine (dropped.schedule free accepting).congr ?_ ?_ rfl rfl id
  · exact (Table.insert_erase _ _ _).symm
  · exact coherent.tasks_of_supersede member

/-- Changing the entry of a file, as long as it is or is not the mark of a parse as before, keeps
all in place. -/
theorem setEntry (coherent : Coherent cache) {id : Identity} {entries : Table Identity (Entry α)}
    (elsewhere : ∀ other, other ≠ id → entries.get? other = cache.entries.get? other)
    (here : ∀ revision, (∃ dirty closed, entries.get? id = some (.pending revision dirty closed)) ↔
      ∃ dirty closed, cache.entries.get? id = some (.pending revision dirty closed)) :
    Coherent { cache with entries := entries } := by
  have same : ∀ other revision,
      (∃ dirty closed, entries.get? other = some (.pending revision dirty closed)) ↔
        ∃ dirty closed, cache.entries.get? other = some (.pending revision dirty closed) := by
    intro other revision
    by_cases h : other = id
    · rw [h]
      exact here revision
    · rw [elsewhere other h]
  refine ⟨coherent.rising, coherent.bounded, coherent.registered, coherent.ordered, coherent.sole,
    ?_, ?_, coherent.unstopped, coherent.awaited⟩
  · intro other revision dirty closed entry
    obtain ⟨dirty', closed', entry'⟩ := (same other revision).mp ⟨dirty, closed, entry⟩
    exact coherent.marked other revision dirty' closed' entry'
  · intro t ht hu hn
    exact (same t.id t.revision).mpr (coherent.holds t ht hu hn)

/-! ## Every step keeps all in place -/

/-- Every step of a task keeps all in place. -/
theorem taskStep {env : Environment α} {move : Move} (coherent : Coherent cache)
    (member : task ∈ cache.tasks) (taken : TaskStep env cache task move other) :
    Coherent other := by
  cases taken with
  | admitted stage =>
    exact coherent.moveTask member .admitted (by rw [stage]; rfl) rfl fun _ => rfl
  | refused => exact coherent.discard member
  | read stage =>
    exact coherent.moveTask member (.reading _) (by rw [stage]; rfl) rfl fun _ => rfl
  | unreadable stage =>
    exact coherent.moveTask member (.parsed _ _) (by rw [stage]; rfl) rfl fun _ => rfl
  | @launched document call stage =>
    have moved := coherent.moveTask member (.parsing (document.map Document.uri) call)
      (by rw [stage]; rfl) rfl fun _ => rfl
    exact moved.congr rfl rfl rfl rfl id
  | @completed uri call roots stage =>
    have moved := coherent.moveTask member (.parsed uri (Parse.run env.parser task.id call))
      (by rw [stage]; rfl) rfl fun _ => rfl
    exact moved.congr rfl rfl rfl rfl id
  | lost roots stage =>
    -- Nobody waits for this parser, so the task was told to stop and has no mark.
    have aborted : task.aborted = true := by
      by_contra h
      have awaited := coherent.awaited task member (Bool.eq_false_iff.mpr h)
      rw [stage] at awaited
      cases awaited
    have dropped := coherent.dropTask member (coherent.mark_ne member (.inr aborted))
    exact dropped.congr rfl rfl rfl rfl id
  | rejected stage foreign =>
    exact (coherent.dropTask member foreign).congr rfl rfl rfl rfl id
  | condemned stage =>
    exact coherent.moveTask member .condemned (by rw [stage]; rfl) rfl fun _ => rfl
  | superseded stage entry accepting =>
    exact coherent.supersede member (by rw [stage]; rfl) accepting
  | installed stage => exact coherent.install member (by rw [stage]; rfl) _ _
  | discarded => exact (coherent.discard member).congr rfl rfl rfl rfl id
  | published stage =>
    have settled := coherent.mark_ne member (.inl (by rw [stage]; rfl))
    exact (coherent.dropTask member settled).congr rfl rfl rfl rfl id
  | stopped aborted => exact coherent.dropTask member (coherent.mark_ne member (.inr aborted))
  | orphaned aborted stage =>
    refine coherent.moveTask member (.orphaned _) (by rw [stage]; rfl) rfl fun h => ?_
    rw [aborted] at h
    cases h

/-- After a step of a task there are the other tasks, perhaps the task itself at another stage, and
perhaps a new one of the same file. The task is about to drop its entry only if it has just seen
that the document was closed. -/
theorem mem_of_taskStep {env : Environment α} {move : Move} (coherent : Coherent cache)
    (member : task ∈ cache.tasks) (taken : TaskStep env cache task move other) {t : Task α}
    (ht : t ∈ other.tasks) :
    t ∈ cache.tasks ∧ t.revision ≠ task.revision ∨
      (∃ stage, t = { task with stage := stage } ∧
        (stage = .condemned → other.entries = cache.entries ∧
          ∃ dirty, cache.entries.get? task.id = some (.pending task.revision dirty true))) ∨
      t = ⟨task.id, cache.lastRevision + 1, .queued, false⟩ := by
  cases taken with
  | refused | discarded =>
    obtain ⟨entries, discarded⟩ := cache.discardPending_eq task.id task.revision
    rw [discarded] at ht
    exact .inl (mem_dropTask.mp ht)
  | lost | rejected | published | stopped => exact .inl (mem_dropTask.mp ht)
  | superseded =>
    obtain ⟨ht, hne⟩ := mem_dropTask.mp ht
    rcases List.mem_append.mp ht with ht | ht
    · exact .inl ⟨ht, hne⟩
    · exact .inr (.inr (List.mem_singleton.mp ht))
  | condemned _ entry =>
    rcases (coherent.mem_moveTask member).mp ht with rfl | kept
    · exact .inr (.inl ⟨_, rfl, fun _ => ⟨rfl, _, entry⟩⟩)
    · exact .inl kept
  | admitted | read | unreadable | launched | completed | installed | orphaned =>
    rcases (coherent.mem_moveTask member).mp ht with rfl | kept
    · exact .inr (.inl ⟨_, rfl, by rintro ⟨⟩⟩)
    · exact .inl kept

/-- A task that is about to drop its entry was so before, or has just seen that the document was
closed. -/
theorem condemned_of_taskStep {env : Environment α} {move : Move} (coherent : Coherent cache)
    (member : task ∈ cache.tasks) (taken : TaskStep env cache task move other) {t : Task α}
    (ht : t ∈ other.tasks) (stage : t.stage = .condemned) :
    t ∈ cache.tasks ∧ t.revision ≠ task.revision ∨
      t = { task with stage := .condemned } ∧ other.entries = cache.entries ∧
        ∃ dirty, cache.entries.get? task.id = some (.pending task.revision dirty true) := by
  rcases coherent.mem_of_taskStep member taken ht with kept | ⟨later, rfl, seen⟩ | rfl
  · exact .inl kept
  · obtain rfl : later = .condemned := stage
    exact .inr ⟨rfl, seen rfl⟩
  · cases stage

/-- Every step of a client keeps all in place, if parses are given up only once none is started any
more. -/
theorem clientStep {calls : List Remainder} (coherent : Coherent cache)
    (ending : ∀ call ∈ calls, call.file? = none → cache.accepting = false)
    (taken : ClientStep calls cache other) : Coherent other := by
  cases taken with
  | idle => exact coherent
  | documents | stopAdmitting => exact coherent.congr rfl rfl rfl rfl id
  | stopAccepting => exact coherent.congr rfl rfl rfl rfl nofun
  | scheduled id accepting free =>
    exact coherent.schedule (coherent.free_of_no_mark accepting free) accepting
  | @marked id revision dirty closed dirty' closed' entry =>
    refine coherent.setEntry (fun other hne => by rw [Table.get?_insert, if_neg hne])
      fun r => ?_
    rw [Table.get?_insert, if_pos rfl, entry]
    constructor <;> rintro ⟨_, _, ⟨⟩⟩ <;> exact ⟨_, _, rfl⟩
  | @evicted id revision outcome entry =>
    refine coherent.setEntry (fun other hne => by rw [Table.get?_erase, if_neg hne])
      fun r => ?_
    rw [Table.get?_erase, if_pos rfl, entry]
    constructor <;> rintro ⟨_, _, ⟨⟩⟩
  | abandoned begun entry => exact coherent.abandon entry (ending _ begun rfl)

end Coherent

end Cache

open Cache

/-- The cache fits together, and the calls that are half done fit the cache. -/
structure World.Coherent (world : World α) : Prop where
  /-- The cache fits together. -/
  cache : world.cache.Coherent
  /-- Once the end of the work has begun, no parse is started. -/
  ending : ∀ call ∈ world.calls, call.file? = none → world.cache.accepting = false
  /-- As long as parses may be started, tasks may get workers. -/
  admitting : world.cache.accepting = true → world.cache.admitting = true

section

variable {env : Environment α} {world next : World α} {trail : List (World α × Action)}
  {action : Action}

/-- No step lets parses be started again. -/
theorem World.accepting_of_step (taken : world.step env action = some next) :
    next.cache.accepting = true → world.cache.accepting = true := by
  rcases step_cases taken with ⟨task, -, move, -, -, taken⟩ | ⟨-, taken⟩
  · rw [taken.frame.2.1]
    exact id
  · exact taken.accepting

/-- What is left to be done for no file in particular is the end of the work: it was left before, or
the step has just begun it. -/
theorem World.ending_of_step (taken : world.step env action = some next) {call : Remainder}
    (begun : call ∈ next.calls) (all : call.file? = none) :
    (∃ earlier ∈ world.calls, earlier.file? = none) ∨ next.cache.accepting = false := by
  cases action with
  | edit | request | look =>
    cases taken
    exact .inl ⟨call, begun, all⟩
  | update id document =>
    cases taken
    rcases List.mem_cons.mp begun with rfl | begun
    · cases all
    · exact .inl ⟨call, begun, all⟩
  | close id =>
    simp only [step] at taken
    split_ifs at taken <;> cases taken
    · rcases List.mem_cons.mp begun with rfl | begun
      · cases all
      · exact .inl ⟨call, begun, all⟩
    · exact .inl ⟨call, begun, all⟩
  | shutdown =>
    simp only [step] at taken
    split_ifs at taken <;> cases taken
    · exact .inr rfl
    · exact .inl ⟨call, begun, all⟩
  | proceed current =>
    simp only [step] at taken
    split_ifs at taken with found
    cases current with
    | revise id unchanged =>
      simp only [proceed] at taken
      split at taken <;> cases taken
      · exact .inl ⟨call, List.mem_of_mem_erase begun, all⟩
      · rcases List.mem_cons.mp begun with rfl | begun
        · cases all
        · exact .inl ⟨call, List.mem_of_mem_erase begun, all⟩
    | request | evict =>
      cases taken
      exact .inl ⟨call, List.mem_of_mem_erase begun, all⟩
    -- These two go on with the end of the work, which had begun before.
    | stopAdmitting => exact .inl ⟨.stopAdmitting, found, rfl⟩
    | abandon left => exact .inl ⟨.abandon left, found, rfl⟩
  | sweep left id =>
    simp only [step] at taken
    split_ifs at taken with found
    exact .inl ⟨.abandon left, found.1, rfl⟩
  | move revision move =>
    rcases step_cases taken with ⟨task, -, move', -, same, -⟩ | ⟨other, -⟩
    · rw [same] at begun
      exact .inl ⟨call, begun, all⟩
    · exact absurd rfl (other revision move)

/-- Every step keeps the cache and the calls together. -/
theorem World.Coherent.step (coherent : world.Coherent)
    (taken : world.step env action = some next) : next.Coherent := by
  have kept : next.cache.accepting = true → world.cache.accepting = true := accepting_of_step taken
  have ending : ∀ call ∈ next.calls, call.file? = none → next.cache.accepting = false := by
    intro call begun all
    rcases ending_of_step taken begun all with ⟨earlier, found, none⟩ | ended
    · by_contra accepting
      have ended := coherent.ending earlier found none
      rw [kept (by simpa using accepting)] at ended
      cases ended
    · exact ended
  rcases step_cases taken with ⟨task, member, move, -, -, taken⟩ | ⟨-, taken⟩
  · refine ⟨coherent.cache.taskStep member taken, ending, fun accepting => ?_⟩
    rw [taken.frame.2.2]
    exact coherent.admitting (kept accepting)
  · refine ⟨coherent.cache.clientStep coherent.ending taken, ending, fun accepting => ?_⟩
    rcases taken.admitting with same | begun
    · rw [same]
      exact coherent.admitting (kept accepting)
    · have ended := coherent.ending _ begun rfl
      rw [kept accepting] at ended
      cases ended

/-- Along every run the cache and the calls fit together. -/
theorem Run.coherent (run : Run env world trail) : world.Coherent := by
  induction run with
  | start files => exact ⟨.empty, nofun, fun _ => rfl⟩
  | step _ _ taken ih => exact ih.step taken

/-- A step starts at most one parse, with the next revision. -/
theorem World.started_of_step (taken : world.step env action = some next) :
    next.cache.started = world.cache.started ∨
      ∃ id, next.cache.started = world.cache.started ++ [(id, world.cache.lastRevision + 1)] := by
  rcases step_cases taken with ⟨task, -, move, -, -, taken⟩ | ⟨-, taken⟩
  · generalize next.cache = cache at taken
    cases taken with
    | refused | discarded =>
      obtain ⟨entries, discarded⟩ := world.cache.discardPending_eq task.id task.revision
      rw [discarded]
      exact .inl rfl
    | superseded => exact .inr ⟨task.id, rfl⟩
    | admitted | read | unreadable | launched | completed | lost | rejected | condemned
    | installed | published | stopped | orphaned => exact .inl rfl
  · generalize next.cache = cache at taken
    cases taken with
    | scheduled id => exact .inr ⟨id, rfl⟩
    | idle | documents | marked | evicted | stopAccepting | stopAdmitting | abandoned =>
      exact .inl rfl

/-- What was started stays on record. -/
theorem World.started_prefix_of_step (taken : world.step env action = some next) :
    world.cache.started <+: next.cache.started := by
  rcases started_of_step taken with same | ⟨id, grown⟩
  · exact same ▸ List.prefix_refl _
  · exact grown ▸ List.prefix_append _ _

/-- Every task that there has been was started. -/
theorem Run.started (run : Run env world trail) :
    ∀ moment ∈ trail, moment.1.cache.started <+: world.cache.started := by
  induction run with
  | start files => exact nofun
  | step run action taken ih =>
    have grown := World.started_prefix_of_step taken
    intro moment past
    rcases List.mem_cons.mp past with rfl | past
    · exact grown
    · exact (ih moment past).trans grown

/-! ## The steps of tasks -/

/-- The step of a task of the cache is what the task can do. -/
theorem World.step_move (coherent : world.cache.Coherent) {task : Task α}
    (member : task ∈ world.cache.tasks) (move : Move) :
    world.step env (.move task.revision move) =
      (move.apply (env.on world.files) world.cache task).map world.withCache := by
  -- The task that is found by the revision is this one, since no other task has it.
  simp only [step, find?_key coherent.distinct member]

/-- Whatever a task of the cache can do is a step of a run. -/
theorem Run.move (run : Run env world trail) {task : Task α} (member : task ∈ world.cache.tasks)
    (move : Move) {cache : Cache α}
    (applied : move.apply (env.on world.files) world.cache task = some cache) :
    Run env (world.withCache cache) ((world, .move task.revision move) :: trail) := by
  refine run.step _ ?_
  rw [World.step_move run.coherent.cache member, applied, Option.map_some]

/-- The next step of a task that needs no parser to end is one of its steps. -/
theorem Cache.exists_apply_of_advance {cache next : Cache α} {task : Task α}
    (advanced : cache.advance env task = some next) :
    ∃ move : Move, move.apply env cache task = some next := by
  unfold Cache.advance at advanced
  split at advanced
  · rename_i stopped hs
    cases advanced
    exact ⟨.stop, hs⟩
  · split at advanced
    · split_ifs at advanced
      · exact ⟨.assignWorker, advanced⟩
      · exact ⟨.refuse, advanced⟩
    · exact ⟨.readDocument, advanced⟩
    · exact ⟨.launch, advanced⟩
    · cases advanced
    · cases advanced
    · exact ⟨.store, advanced⟩
    · exact ⟨.discard, advanced⟩
    · exact ⟨.publish, advanced⟩

/-! ## Workers -/

/-- The number of workers that are taken, as a count. -/
theorem Cache.busy_eq_countP (cache : Cache α) :
    cache.busy = cache.tasks.countP fun task => task.stage.hasWorker :=
  (List.countP_eq_length_filter ..).symm

/-- Dropping a task takes no worker. -/
theorem Cache.busy_dropTask_le (cache : Cache α) (revision : Nat) :
    (cache.dropTask revision).busy ≤ cache.busy := by
  rw [busy_eq_countP, busy_eq_countP]
  exact List.filter_sublist.countP_le

/-- A new task takes no worker. -/
theorem Cache.busy_schedule (cache : Cache α) (id : Identity) :
    (cache.schedule id).busy = cache.busy := by
  rw [busy_eq_countP, busy_eq_countP]
  simp [Cache.schedule, List.countP_append, Stage.hasWorker]

namespace Cache.Coherent

variable {cache : Cache α} {task : Task α}

/-- Moving a task takes no worker, unless it goes to a stage with a worker from one without. -/
theorem busy_moveTask_le (coherent : Coherent cache) (member : task ∈ cache.tasks)
    (stage : Stage α) (kept : stage.hasWorker = true → task.stage.hasWorker = true) :
    (cache.moveTask task.revision stage).busy ≤ cache.busy := by
  rw [busy_eq_countP, busy_eq_countP, Cache.moveTask, List.countP_map]
  refine List.countP_mono_left fun t ht taken => ?_
  rw [Function.comp_apply] at taken
  split_ifs at taken with own
  · rw [coherent.eq_of_revision ht member own]
    exact kept taken
  · exact taken

/-- Moving a task takes at most one worker. -/
theorem busy_moveTask_le_succ (coherent : Coherent cache) (revision : Nat) (stage : Stage α) :
    (cache.moveTask revision stage).busy ≤ cache.busy + 1 := by
  rw [busy_eq_countP, busy_eq_countP, Cache.moveTask]
  -- By induction on the tasks, of which at most one has the revision.
  have ordered := coherent.ordered
  dsimp only
  generalize cache.tasks = tasks at ordered
  induction tasks with
  | nil => exact Nat.zero_le _
  | cons t rest ih =>
    obtain ⟨above, ordered⟩ := List.pairwise_cons.mp ordered
    rw [List.map_cons, List.countP_cons, List.countP_cons]
    by_cases own : t.revision = revision
    · -- No other task has this revision, so the rest stays as it is.
      have rest_eq : (rest.map fun task =>
          if task.revision = revision then { task with stage := stage } else task) = rest := by
        conv_rhs => rw [← List.map_id rest]
        refine List.map_congr_left fun later member => ?_
        have := above later member
        rw [if_neg (by omega), id_eq]
      rw [rest_eq]
      split_ifs <;> omega
    · have := ih ordered
      rw [if_neg own]
      omega

/-- No step of a task takes more workers than there are. -/
theorem busy_taskStep {env : Environment α} {move : Move} {next : Cache α}
    (coherent : Coherent cache) (member : task ∈ cache.tasks)
    (taken : TaskStep env cache task move next) (enough : cache.busy ≤ env.workers) :
    next.busy ≤ env.workers := by
  cases taken with
  | admitted stage admitting free =>
    have moved := coherent.busy_moveTask_le_succ task.revision .admitted
    omega
  | refused | discarded =>
    obtain ⟨entries, discarded⟩ := cache.discardPending_eq task.id task.revision
    rw [discarded]
    exact Nat.le_trans (busy_dropTask_le _ _) enough
  | read stage | unreadable stage | launched stage | completed _ stage | orphaned _ stage =>
    refine Nat.le_trans (coherent.busy_moveTask_le member _ fun _ => ?_) enough
    rw [stage]
    rfl
  | condemned | installed =>
    refine Nat.le_trans (coherent.busy_moveTask_le member _ fun h => ?_) enough
    cases h
  | lost | rejected | published | stopped => exact Nat.le_trans (busy_dropTask_le _ _) enough
  | superseded =>
    rw [← busy_schedule cache task.id] at enough
    exact Nat.le_trans (busy_dropTask_le _ _) enough

end Cache.Coherent

/-- No step of a client takes a worker. -/
theorem Cache.busy_clientStep {calls : List Remainder} {cache next : Cache α}
    (taken : ClientStep calls cache next) : next.busy = cache.busy := by
  cases taken with
  | scheduled id => exact busy_schedule cache id
  | abandoned =>
    rw [busy_eq_countP, busy_eq_countP, List.countP_map]
    refine List.countP_congr fun t _ => ?_
    rw [Function.comp_apply]
    split_ifs <;> exact Iff.rfl
  | idle | documents | marked | evicted | stopAccepting | stopAdmitting => rfl

/-- Along every run there are no more workers taken than there are. -/
theorem Run.busy_le_workers (run : Run env world trail) : world.cache.busy ≤ env.workers := by
  induction run with
  | start files => exact Nat.zero_le _
  | step run action taken ih =>
    rcases World.step_cases taken with ⟨task, member, move, -, -, taken⟩ | ⟨-, taken⟩
    · have kept := run.coherent.cache.busy_taskStep member taken ih
      exact kept
    · rw [busy_clientStep taken]
      exact ih

/-! ## What follows -/

namespace Cache.Coherent

variable {cache : Cache α} {task : Task α}

/-- Tasks of which any two have one revision are at most one task. -/
theorem length_filter_le_one (coherent : Coherent cache) {test : Task α → Bool}
    (sole : ∀ a ∈ cache.tasks, ∀ b ∈ cache.tasks, test a = true → test b = true →
      a.revision = b.revision) : (cache.tasks.filter test).length ≤ 1 := by
  have ordered := coherent.ordered.filter test
  have members : ∀ t ∈ cache.tasks.filter test, t ∈ cache.tasks ∧ test t = true :=
    fun t ht => List.mem_filter.mp ht
  -- Two of them would have different revisions, as they stand in the order of these.
  generalize cache.tasks.filter test = found at ordered members
  match found with
  | [] | [_] => simp
  | a :: b :: rest =>
    obtain ⟨ha, ta⟩ := members a (by simp)
    obtain ⟨hb, tb⟩ := members b (by simp)
    have below : a.revision < b.revision := (List.pairwise_cons.mp ordered).1 b (by simp)
    have same := sole a ha b hb ta tb
    omega

/-- A task that finds its own mark does not go away empty-handed. -/
theorem store_ne_retire (env : Environment α) (coherent : Coherent cache)
    (member : task ∈ cache.tasks) {dirty closed : Bool}
    (entry : cache.entries.get? task.id = some (.pending task.revision dirty closed)) :
    cache.store task ≠ some (cache.retire task) := by
  intro retired
  -- Whatever moves the task on keeps it among the tasks, and a retired task is not among them.
  have gone : ∀ stage, ∀ moved : Cache α, moved.tasks = (cache.moveTask task.revision stage).tasks →
      moved ≠ cache.retire task := by
    rintro stage moved same rfl
    have here : { task with stage := stage } ∈ (cache.retire task).tasks := by
      rw [same]
      exact (coherent.mem_moveTask member).mpr (.inl rfl)
    exact (mem_dropTask.mp here).2 rfl
  have listed : TaskStep env cache task .store (cache.retire task) := .of_store retired
  generalize hn : cache.retire task = next at listed
  cases listed with
  | rejected stage foreign => exact foreign dirty closed entry
  | condemned stage => exact gone .condemned _ rfl hn.symm
  | superseded stage =>
    have counted : cache.lastRevision = cache.lastRevision + 1 := congrArg Cache.lastRevision hn
    omega
  | @installed uri outcome stage =>
    exact gone (.installed uri outcome) (cache.install task uri outcome) rfl hn.symm

end Cache.Coherent

/-- A task whose parser has ended can always store its outcome. -/
theorem Cache.exists_store (cache : Cache α) {task : Task α} {uri : Option Uri}
    {outcome : Outcome α} (stage : task.stage = .parsed uri outcome) :
    ∃ next, cache.store task = some next := by
  simp only [store, stage]
  split
  · exact ⟨_, rfl⟩
  · split_ifs
    · exact ⟨_, rfl⟩
    · exact ⟨_, rfl⟩
    · split <;> exact ⟨_, rfl⟩
    · exact ⟨_, rfl⟩
  · split_ifs <;> exact ⟨_, rfl⟩

/-- No more parsers are running than workers are taken. -/
theorem Cache.length_isRunning_le_busy (cache : Cache α) :
    (cache.tasks.filter fun task => task.stage.isRunning).length ≤ cache.busy := by
  rw [busy_eq_countP, ← List.countP_eq_length_filter]
  refine List.countP_mono_left fun task _ running => ?_
  cases hs : task.stage <;> simp_all [Stage.isRunning, Stage.hasWorker]

/-- However the steps of clients and tasks follow each other, also while the work ends and after it:
at most one task of a file has still to settle its entry, so its parser does not run twice at once;
while parses may be started, that task is there exactly as long as the entry is the mark of a parse,
and it is the mark of this one; every parse, of those that are over too, has a revision above all
before it; while parses may be started, a task that stores its outcome finds its own mark and is not
turned away; and no more parsers run at once than there are workers. -/
theorem one_parse_at_a_time (run : Run env world trail) :
    (∀ id,
      (world.cache.tasks.filter fun task => task.id = id ∧ task.stage.isUnsettled).length ≤ 1 ∧
      (world.cache.tasks.filter fun task => task.id = id ∧ task.stage.isRunning).length ≤ 1) ∧
    (world.cache.accepting = true → ∀ id revision,
      (∃ task ∈ world.cache.tasks,
        task.id = id ∧ task.revision = revision ∧ task.stage.isUnsettled = true) ↔
      ∃ dirty closed, world.cache.entries.get? id = some (.pending revision dirty closed)) ∧
    (world.cache.started.Pairwise (fun earlier later => earlier.2 < later.2) ∧
      (∀ parse ∈ world.cache.started, parse.2 ≤ world.cache.lastRevision) ∧
      ∀ past ∈ world :: trail.map Prod.fst, ∀ task ∈ past.cache.tasks,
        (task.id, task.revision) ∈ world.cache.started) ∧
    (world.cache.accepting = true → ∀ task ∈ world.cache.tasks, ∀ uri outcome,
      task.stage = .parsed uri outcome →
      (∃ dirty closed,
        world.cache.entries.get? task.id = some (.pending task.revision dirty closed)) ∧
      ∃ next, world.cache.store task = some next ∧ next ≠ world.cache.retire task) ∧
    (world.cache.tasks.filter fun task => task.stage.isRunning).length ≤ env.workers := by
  have coherent := run.coherent.cache
  refine ⟨fun id => ⟨?_, ?_⟩, fun accepting id revision => ⟨?_, ?_⟩,
    ⟨coherent.rising, coherent.bounded, ?_⟩, ?_, ?_⟩
  · refine coherent.length_filter_le_one fun a ha b hb ta tb => ?_
    simp only [decide_eq_true_eq] at ta tb
    exact coherent.sole a ha b hb ta.2 tb.2 (ta.1.trans tb.1.symm)
  · -- A parser is running only for a task that has still to settle its entry.
    refine coherent.length_filter_le_one fun a ha b hb ta tb => ?_
    simp only [decide_eq_true_eq] at ta tb
    exact coherent.sole a ha b hb (Stage.isUnsettled_of_isRunning ta.2)
      (Stage.isUnsettled_of_isRunning tb.2) (ta.1.trans tb.1.symm)
  · rintro ⟨task, member, rfl, rfl, unsettled⟩
    exact coherent.holds task member unsettled (coherent.unstopped accepting task member)
  · rintro ⟨dirty, closed, entry⟩
    obtain ⟨task, member, hid, hrev, unsettled, -⟩ := coherent.marked id revision dirty closed entry
    exact ⟨task, member, hid, hrev, unsettled⟩
  · -- A task of an earlier time was on record then, and records are kept.
    intro past hp task member
    rcases List.mem_cons.mp hp with rfl | hp
    · exact coherent.registered task member
    · obtain ⟨moment, hm, rfl⟩ := List.mem_map.mp hp
      obtain ⟨before, earlier, -⟩ := run.past hm
      exact (run.started moment hm).subset (earlier.coherent.cache.registered task member)
  · intro accepting task member uri outcome stage
    obtain ⟨dirty, closed, entry⟩ := coherent.holds task member (by rw [stage]; rfl)
      (coherent.unstopped accepting task member)
    obtain ⟨next, stored⟩ := world.cache.exists_store stage
    refine ⟨⟨dirty, closed, entry⟩, next, stored, ?_⟩
    rintro rfl
    exact coherent.store_ne_retire env member entry stored
  · exact Nat.le_trans world.cache.length_isRunning_le_busy run.busy_le_workers

/-- Two files are parsed with one worker: the second task waits while the parser of the first is
running. -/
theorem one_parse_at_a_time_of_two_files : ∃ world trail, Run (Trial.env 1) world trail ∧
    world.cache.tasks.map (fun task => (task.id, task.revision)) =
      [(Trial.file, 1), (Trial.otherFile, 2)] ∧
    world.cache.isInFlight Trial.file = true ∧
    (world.cache.tasks.filter fun task => task.stage.isRunning).length ≤ (Trial.env 1).workers := by
  have run := (Trial.start 1).follow
    [.update Trial.file (Trial.document "sound"), .proceed (.revise Trial.file false),
      .proceed (.request Trial.file), .request Trial.otherFile, .move 1 .assignWorker,
      .move 1 .readDocument, .move 1 .launch] rfl
  exact ⟨_, _, run, rfl, rfl, (one_parse_at_a_time run).2.2.2.2⟩

end

end DiagnosticServer
