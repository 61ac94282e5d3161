import Mathlib.Algebra.Order.BigOperators.Group.List
import Mathlib.Algebra.Order.Group.Nat
import DiagnosticServer.Proofs.Cache.Quiescence
import DiagnosticServer.Proofs.Options

/-!
# Queries are answered

A query looks its file up, waits for the parse that it finds there, and looks the file up again.
Meanwhile that parse may have given way to another one, or to nothing if the document was closed, in
which case the query starts a parse itself; so the loop has no bound on the face of it. A query that
waits is `Pursued`: it waits for the parse whose mark is there, or that parse is over and whatever
is there now will not be disturbed again. From this follow how often it looks its file up and how
often it starts a parse. `work_comes_to_rest` puts this together with the end of the work as a
whole.
-/

namespace DiagnosticServer

variable {α : Type}

open Cache

/-- What goes on in an engine while its clients are silent. -/
inductive Deed where
  /-- With these files on the disk, the task of that file and revision takes a step. -/
  | move (files : FileSystem) (id : Identity) (revision : Nat) (move : Move)
  /-- The query of that number goes on. -/
  | resume (number : Nat)

namespace Deed

/-- Whether a query goes on. -/
def isResume : Deed → Bool
  | resume _ => true
  | move _ _ _ _ => false

/-- Whether a task of one of those files starts its parser. -/
def launches (about : Identity → Bool) : Deed → Bool
  | move _ id _ .launch => about id
  | _ => false

end Deed

namespace Engine

/-- What a deed makes of the engine, if it can be done. -/
def perform (env : Environment α) (engine : Engine α) : Deed → Option (Engine α)
  | .move files id revision move =>
    if engine.cache.tasks.any fun task => task.id = id && task.revision = revision then
      ((⟨engine.cache, files, []⟩ : World α).step env (.move revision move)).map fun next =>
        engine.withCache next.cache
    else none
  | .resume number => (engine.queries.find? fun query => query.number = number).bind engine.resume

/-- What deeds make of the engine one after the other. -/
def performAll (env : Environment α) (engine : Engine α) : List Deed → Option (Engine α)
  | [] => some engine
  | deed :: rest =>
    match engine.perform env deed with
    | some next => next.performAll env rest
    | none => none

/-- The step of a task that a deed is, with the world in which it is taken. -/
def step? (engine : Engine α) : Deed → Option (World α × Action)
  | .move files _ revision move => some (⟨engine.cache, files, []⟩, .move revision move)
  | .resume _ => none

/-- The steps that tasks take while deeds are done one after the other, latest first. -/
def steps (env : Environment α) (engine : Engine α) : List Deed → List (World α × Action)
  | [] => []
  | deed :: rest =>
    match engine.perform env deed with
    | some next => next.steps env rest ++ (engine.step? deed).toList
    | none => []

/-- Whether there is nothing more to do. -/
def AtRest (env : Environment α) (engine : Engine α) : Prop :=
  ∀ deed, engine.perform env deed = none

end Engine

namespace Cache

/-! ## A query that waits -/

/-- Whether a query that holds that handle will hear of it. -/
inductive Pursued (cache : Cache α) (handle : Handle) : Prop where
  /-- The mark of the parse it waits for is there. -/
  | marked {dirty closed : Bool} (incomplete : handle.complete = false)
      (mark : cache.entries.get? handle.id = some (.pending handle.revision dirty closed))
  /-- The parse is over, and if another one is on its way that one is neither dirty nor closed. -/
  | ended (finished : handle.revision ∈ cache.finished)
      (clean : ∀ revision dirty closed,
        cache.entries.get? handle.id = some (.pending revision dirty closed) →
        dirty = false ∧ closed = false)

/-- How often a query that holds that handle has to look its file up until it is answered. -/
def looksLeft (cache : Cache α) (handle : Handle) : Nat :=
  match cache.entries.get? handle.id with
  | some (.ready _ _) => 1
  | some (.pending revision dirty closed) =>
    if revision = handle.revision ∧ dirty = false ∧ closed = false then 1 else 2
  | none => 2

/-- How many parses a query for a file has to start until it is answered. -/
def startsLeft (cache : Cache α) (id : Identity) : Nat :=
  match cache.entries.get? id with
  | some (.ready _ _) => 0
  | some (.pending _ _ closed) => closed.toNat
  | none => 1

section

variable {env : Environment α} {cache next : Cache α} {task : Task α} {move : Move}
  {files : FileSystem} {id : Identity} {handle : Handle}

/-- No query has to look its file up more than twice again. -/
theorem looksLeft_le_two (cache : Cache α) (handle : Handle) : cache.looksLeft handle ≤ 2 := by
  unfold looksLeft
  split
  · exact Nat.le_succ 1
  · split_ifs
    · exact Nat.le_succ 1
    · exact Nat.le_refl 2
  · exact Nat.le_refl 2

/-- A query that waits has to look its file up again. -/
theorem looksLeft_pos (cache : Cache α) (handle : Handle) : 0 < cache.looksLeft handle := by
  unfold looksLeft
  split
  · exact Nat.one_pos
  · split_ifs
    · exact Nat.one_pos
    · exact Nat.two_pos
  · exact Nat.two_pos

/-- No query has to start more than one parse. -/
theorem startsLeft_le_one (cache : Cache α) (id : Identity) : cache.startsLeft id ≤ 1 := by
  unfold startsLeft
  split
  · exact Nat.zero_le 1
  · exact Bool.toNat_le _
  · exact Nat.le_refl 1

/-- What a query has before it depends on the entry alone. -/
theorem left_congr (same : next.entries.get? handle.id = cache.entries.get? handle.id) :
    next.looksLeft handle = cache.looksLeft handle ∧
      next.startsLeft handle.id = cache.startsLeft handle.id := by
  simp only [looksLeft, startsLeft, same, and_self]

/-- A query waits as long as the mark of its parse is there. -/
theorem Calm.progress_of_mark (calm : cache.Calm env) {dirty closed : Bool}
    (incomplete : handle.complete = false)
    (mark : cache.entries.get? handle.id = some (.pending handle.revision dirty closed)) :
    cache.progress handle = .waiting := by
  obtain ⟨task, member, -, named, -, alive⟩ := calm.coherent.marked _ _ _ _ mark
  have awaited : (cache.tasks.any fun task =>
      task.revision == handle.revision && task.stage.isAwaited) = true :=
    List.any_eq_true.mpr ⟨task, member, by
      rw [named, beq_self_eq_true, calm.coherent.awaited task member alive, Bool.and_self]⟩
  unfold progress
  rw [if_neg (by simp [incomplete, calm.unfinished mark]), if_pos awaited]

/-- Once its parse is over, it can go on. -/
theorem progress_of_finished (finished : handle.revision ∈ cache.finished) :
    cache.progress handle = .finished := by
  unfold progress
  rw [if_pos (by simp [finished])]

/-- No step of a task makes a query wait in vain, look its file up more often or start another parse
than it would have. -/
theorem Pursued.taskStep (pursued : cache.Pursued handle) (calm : cache.Calm env)
    (member : task ∈ cache.tasks) (taken : TaskStep (env.on files) cache task move next) :
    next.Pursued handle ∧ next.looksLeft handle ≤ cache.looksLeft handle ∧
      next.startsLeft handle.id = cache.startsLeft handle.id := by
  -- Where the entry of the file stays as it is, nothing changes for the query.
  have kept : next.entries.get? handle.id = cache.entries.get? handle.id →
      (∀ revision ∈ cache.finished, revision ∈ next.finished) →
      next.Pursued handle ∧ next.looksLeft handle ≤ cache.looksLeft handle ∧
        next.startsLeft handle.id = cache.startsLeft handle.id := by
    intro same grown
    obtain ⟨looks, starts⟩ := left_congr same
    refine ⟨?_, Nat.le_of_eq looks, starts⟩
    cases pursued with
    | marked incomplete mark => exact .marked incomplete (same.trans mark)
    | ended finished clean => exact .ended (grown _ finished) (by rwa [same])
  rcases calm.settle_cases member taken with ⟨entries, finished⟩ | ⟨elsewhere, finished, here⟩
  · refine kept (by rw [entries]) fun revision member => ?_
    rw [finished]
    exact member
  have grown : ∀ revision ∈ cache.finished, revision ∈ next.finished := by
    intro revision member
    rw [finished]
    exact List.mem_cons_of_mem _ member
  by_cases own : handle.id = task.id
  · rw [← own] at here
    -- The parse that has settled the entry is the one waited for, or there was no such left.
    have done : handle.revision ∈ next.finished := by
      cases pursued with
      | marked incomplete mark =>
        have named : handle.revision = task.revision := by
          rcases here with ⟨entry, -⟩ | ⟨entry, -⟩ | ⟨entry, -⟩ <;>
            exact (Entry.pending.inj (Option.some.inj (mark.symm.trans entry))).1
        rw [named, finished]
        exact List.mem_cons_self
      | ended finished => exact grown _ finished
    rcases here with ⟨mark, after⟩ | ⟨mark, outcome, after⟩ | ⟨mark, after⟩
    · -- The mark was dirty, and the new one is clean: one more look will find its outcome.
      refine ⟨.ended done ?_, ?_, ?_⟩
      · intro revision dirty closed entry
        rw [after] at entry
        cases entry
        exact ⟨rfl, rfl⟩
      · have dirty : cache.looksLeft handle = 2 := by simp [looksLeft, mark]
        rw [dirty]
        exact looksLeft_le_two next handle
      · simp [startsLeft, mark, after]
    · -- The outcome is held now, and the next look will find it.
      refine ⟨.ended done ?_, ?_, ?_⟩
      · intro revision dirty closed entry
        rw [after] at entry
        cases entry
      · have ready : next.looksLeft handle = 1 := by simp only [looksLeft, after]
        rw [ready]
        exact looksLeft_pos cache handle
      · simp [startsLeft, mark, after]
    · -- The document was closed, and the next look will start a parse, as was reckoned with.
      refine ⟨.ended done ?_, ?_, ?_⟩
      · intro revision dirty closed entry
        rw [after] at entry
        cases entry
      · simp [looksLeft, mark, after]
      · simp [startsLeft, mark, after]
  · exact kept (elsewhere _ own) grown

/-! ## Looking a file up -/

/-- Whether a look-up leaves a query to wait with that handle: it starts the parse that had to be
started, if one had, and what the query has before it is known. -/
structure Joins (env : Environment α) (cache : Cache α) (id : Identity) (next : Cache α)
    (handle : Handle) : Prop where
  /-- The look-up finds no outcome. -/
  looked : cache.lookup id = (next, .ok (.inFlight handle))
  /-- The query waits for the file. -/
  named : handle.id = id
  /-- The cache stays calm. -/
  calm : next.Calm env
  /-- The query will hear of its parse. -/
  pursued : next.Pursued handle
  /-- The steps of a parse that is started were reckoned with. -/
  effort : next.total Stage.effort (fun _ => true) + 6 * next.startsLeft id =
    cache.total Stage.effort (fun _ => true) + 6 * cache.startsLeft id
  /-- So was the start of its parser. -/
  due : ∀ about, next.total Stage.due about + (if about id then next.startsLeft id else 0) =
    cache.total Stage.due about + if about id then cache.startsLeft id else 0
  /-- A parse that is neither dirty nor closed brings the answer. -/
  last : (∀ revision dirty closed, cache.entries.get? id = some (.pending revision dirty closed) →
    dirty = false ∧ closed = false) → next.looksLeft handle = 1
  /-- A query whose parse is over had to look twice. -/
  again : ∀ old : Handle, old.id = id → old.revision ∈ cache.finished → cache.looksLeft old = 2

/-- Looking a file up finds an outcome or leaves the query to wait. -/
theorem Calm.lookup_cases (calm : cache.Calm env) (id : Identity) :
    (∃ snapshot, cache.lookup id = (cache, .ok (.ready snapshot)) ∧ cache.startsLeft id = 0) ∨
      ∃ next handle, cache.Joins env id next handle := by
  cases entry : cache.entries.get? id with
  | none =>
    have looked := lookup_of_accepting_none calm.accepting entry
    have after := calm.look id
    rw [looked] at after
    have mark : (cache.schedule id).entries.get? id =
        some (.pending (cache.lastRevision + 1) false false) := by
      rw [get?_schedule, if_pos rfl]
    have before : cache.startsLeft id = 1 := by simp only [startsLeft, entry]
    have later : (cache.schedule id).startsLeft id = 0 := by simp only [startsLeft, mark]; rfl
    refine .inr ⟨_, _, looked, rfl, after, .marked rfl mark, ?_, fun about => ?_, fun _ => ?_, ?_⟩
    · rw [total_schedule (free_of_none entry), before, later]
      rfl
    · rw [total_schedule (free_of_none entry), before, later, ite_self]
      rfl
    · simp only [looksLeft, mark, and_self, if_true]
    · rintro old rfl -
      simp only [looksLeft, entry]
  | some held =>
    cases held with
    | ready revision outcome =>
      refine .inl ⟨⟨revision, outcome⟩, lookup_of_ready entry, ?_⟩
      simp only [startsLeft, entry]
    | pending revision dirty closed =>
      refine .inr ⟨_, _, lookup_of_mark entry, rfl, calm, .marked rfl entry, rfl, fun _ => rfl,
        fun clean => ?_, ?_⟩
      · obtain ⟨rfl, rfl⟩ := clean _ _ _ entry
        simp only [looksLeft, entry, and_self, if_true]
      · rintro old rfl finished
        have other : revision ≠ old.revision := fun same => calm.unfinished entry (same ▸ finished)
        simp only [looksLeft, entry, other, false_and, if_false]

/-- Among distinct keys at most one is a given one. -/
theorem length_filter_le_toNat {keys : List Identity} (distinct : keys.Nodup)
    (test : Identity → Bool) (only : ∀ key, test key = true → key = id) :
    (keys.filter test).length ≤ (test id).toNat := by
  cases chosen : test id with
  | false =>
    rw [Bool.toNat_false, Nat.le_zero, List.length_eq_zero_iff, List.filter_eq_nil_iff]
    intro key _ found
    rw [only key found, chosen] at found
    cases found
  | true =>
    have within : keys.filter test ⊆ [id] :=
      fun key found => List.mem_singleton.mpr (only key (List.mem_filter.mp found).2)
    exact (List.subperm_of_subset (distinct.filter test) within).length_le

/-- A query for a file leads to two runs of the parser on it, at most: those of the parse on its
way, which is dirty or closed but not both, and that of the parse which the query has to start. -/
theorem Calm.load_add_startsLeft_le (calm : cache.Calm env) (id : Identity) :
    cache.total Stage.load (fun other => other = id) + cache.startsLeft id ≤ 2 := by
  have keys : cache.entries.keys.Nodup := cache.entries.distinct
  have marks := length_filter_le_toNat keys
    (fun other => cache.isInFlight other && decide (other = id)) fun other chosen =>
      of_decide_eq_true (Bool.and_eq_true_iff.mp chosen).2
  have dirty := length_filter_le_toNat keys
    (fun other => cache.isInFlight other && (decide (other = id) && cache.isDirty other))
    fun other chosen =>
      of_decide_eq_true (Bool.and_eq_true_iff.mp (Bool.and_eq_true_iff.mp chosen).2).1
  rw [calm.total_load]
  cases entry : cache.entries.get? id with
  | none =>
    simp only [startsLeft, isInFlight, entry, Bool.false_and, Bool.toNat_false] at marks dirty ⊢
    omega
  | some held =>
    cases held with
    | ready revision outcome =>
      simp only [startsLeft, isInFlight, entry, Bool.false_and, Bool.toNat_false] at marks dirty ⊢
      omega
    | pending revision d c =>
      have unmixed := calm.unmixed id revision
      rw [isDirty_of_mark entry] at dirty
      simp only [startsLeft, entry]
      cases d with
      | false =>
        rw [Bool.and_false, Bool.and_false, Bool.toNat_false] at dirty
        have one := Bool.toNat_le (cache.isInFlight id && decide (id = id))
        have other := Bool.toNat_le c
        omega
      | true =>
        cases c with
        | false =>
          have one := Bool.toNat_le (cache.isInFlight id && decide (id = id))
          have other := Bool.toNat_le (cache.isInFlight id && (decide (id = id) && true))
          rw [Bool.toNat_false]
          omega
        | true => exact absurd entry unmixed

end

end Cache

namespace Engine

/-! ## What an engine has before it -/

/-- How often the queries have to look their files up until they are answered. -/
def looksLeft (engine : Engine α) : Nat :=
  (engine.queries.map fun query => engine.cache.looksLeft query.handle).sum

/-- How many parses of those files the queries have to start until they are answered. -/
def startsLeft (engine : Engine α) (about : Identity → Bool) : Nat :=
  (engine.queries.map fun query =>
    if about query.handle.id then engine.cache.startsLeft query.handle.id else 0).sum

/-- How many deeds are left, at most. -/
def effortLeft (engine : Engine α) : Nat :=
  engine.cache.total Stage.effort (fun _ => true) + 6 * engine.startsLeft (fun _ => true) +
    engine.looksLeft

/-- How often the parser is still to be started for those files. -/
def dueLeft (engine : Engine α) (about : Identity → Bool) : Nat :=
  engine.cache.total Stage.due about + engine.startsLeft about

/-- Whether deeds have been paid for by what was left before them. -/
structure Pays (engine : Engine α) (deeds : List Deed) (next : Engine α) : Prop where
  /-- Each deed was one of those that were left. -/
  effort : deeds.length + next.effortLeft ≤ engine.effortLeft
  /-- The parser was started as often as it is to be started less. -/
  due : ∀ about, deeds.countP (Deed.launches about) + next.dueLeft about = engine.dueLeft about
  /-- Queries looked their files up as often as they had to, at most. -/
  looks : deeds.countP Deed.isResume + next.looksLeft ≤ engine.looksLeft

/-- Whether the same queries wait as before, or the only one was answered with an outcome. -/
def Serves (engine next : Engine α) : Prop :=
  next.queries.map Query.number = engine.queries.map Query.number ∧
      next.answers = engine.answers ∨
    ∃ number snapshot, engine.queries.map Query.number = [number] ∧ next.queries = [] ∧
      next.answers = engine.answers ++ [(number, .ok snapshot)]

/-- The cache is calm, and at most one query waits, not in vain. -/
structure Tended (env : Environment α) (engine : Engine α) : Prop where
  /-- The cache is calm. -/
  calm : engine.cache.Calm env
  /-- At most one query waits. -/
  single : engine.queries.length ≤ 1
  /-- A query that waits will hear of its parse. -/
  pursued : ∀ query ∈ engine.queries, engine.cache.Pursued query.handle

section

variable {env : Environment α} {engine next final : Engine α} {deed : Deed} {deeds rest : List Deed}

/-- Nothing costs nothing. -/
theorem Pays.refl (engine : Engine α) : engine.Pays [] engine :=
  ⟨by simp, fun _ => by simp, by simp⟩

/-- A deed and those after it are paid for together. -/
theorem Pays.cons (first : engine.Pays [deed] next) (later : next.Pays rest final) :
    engine.Pays (deed :: rest) final := by
  refine ⟨?_, fun about => ?_, ?_⟩
  · have one := first.effort
    have others := later.effort
    rw [List.length_singleton] at one
    rw [List.length_cons]
    omega
  · have one := first.due about
    have others := later.due about
    rw [← List.singleton_append, List.countP_append]
    omega
  · have one := first.looks
    have others := later.looks
    rw [← List.singleton_append, List.countP_append]
    omega

/-- Nothing happens to queries while nothing is done. -/
theorem Serves.refl (engine : Engine α) : engine.Serves engine := .inl ⟨rfl, rfl⟩

/-- A query is answered once. -/
theorem Serves.trans (first : engine.Serves next) (later : next.Serves final) :
    engine.Serves final := by
  rcases first with ⟨waits, silent⟩ | ⟨number, snapshot, asked, ended, answered⟩
  · rw [Serves, waits, silent] at later
    exact later
  · rcases later with ⟨waits, silent⟩ | ⟨_, _, asked', -⟩
    · rw [ended, List.map_nil, List.map_eq_nil_iff] at waits
      exact .inr ⟨number, snapshot, asked, waits, silent.trans answered⟩
    · rw [ended] at asked'
      cases asked'

/-! ## What a deed does -/

/-- What a task can do is a deed. -/
theorem perform_move (coherent : engine.cache.Coherent) {task : Task α}
    (member : task ∈ engine.cache.tasks) (files : FileSystem) (move : Move) :
    engine.perform env (.move files task.id task.revision move) =
      (move.apply (env.on files) engine.cache task).map engine.withCache := by
  have found : (engine.cache.tasks.any fun other =>
      decide (other.id = task.id) && decide (other.revision = task.revision)) = true :=
    List.any_eq_true.mpr ⟨task, member, by simp⟩
  have stepped : (⟨engine.cache, files, []⟩ : World α).step env (.move task.revision move) = _ :=
    World.step_move coherent member move
  rw [Engine.perform, if_pos found, stepped, Option.map_map]
  rfl

/-- A deed of a task is what the task can do. -/
theorem apply_of_perform (coherent : engine.cache.Coherent) {files : FileSystem} {id : Identity}
    {revision : Nat} {move : Move}
    (performed : engine.perform env (.move files id revision move) = some next) :
    ∃ task ∈ engine.cache.tasks, task.id = id ∧ task.revision = revision ∧ ∃ cache,
      move.apply (env.on files) engine.cache task = some cache ∧
      next = engine.withCache cache := by
  have named := performed
  simp only [perform] at named
  split_ifs at named with listed
  obtain ⟨task, member, same⟩ := List.any_eq_true.mp listed
  simp only [Bool.and_eq_true, decide_eq_true_eq] at same
  rw [← same.1, ← same.2, perform_move coherent member] at performed
  obtain ⟨cache, applied, rfl⟩ := Option.map_eq_some_iff.mp performed
  exact ⟨task, member, same.1, same.2, cache, applied, rfl⟩

/-- A deed of a task goes on with the steps that have come to the cache. -/
theorem taskStep_of_perform {trail : List (World α × Action)}
    (calm : engine.cache.CalmAfter env trail) {files : FileSystem} {id : Identity} {revision : Nat}
    {move : Move} (performed : engine.perform env (.move files id revision move) = some next) :
    ∃ task ∈ engine.cache.tasks, task.id = id ∧ ∃ cache before, next = engine.withCache cache ∧
      cache.CalmAfter env ((⟨engine.cache, files, []⟩, .move revision move) ::
        (before, .edit files) :: trail) ∧
      TaskStep (env.on files) engine.cache task move cache := by
  have coherent := Calm.coherent ⟨trail, calm⟩
  obtain ⟨task, member, named, rfl, cache, applied, rfl⟩ := apply_of_perform coherent performed
  have taken : TaskStep (env.on files) engine.cache task move cache := .of_apply applied
  have stepped : (⟨engine.cache, files, []⟩ : World α).step env (.move task.revision move) = _ :=
    World.step_move coherent member move
  rw [applied, Option.map_some] at stepped
  have accepting : cache.accepting = true := by
    rw [taken.frame.2.1]
    exact Calm.accepting ⟨trail, calm⟩
  obtain ⟨before, later⟩ := calm.step files stepped (fun revives => revives) rfl accepting
  exact ⟨task, member, named, cache, before, rfl, later, taken⟩

/-- While no query waits, deeds go on with the steps that have come to the cache, and every parser
that has been started since was started by one of them. -/
theorem calmAfter_of_performAll {trail : List (World α × Action)}
    (calm : engine.cache.CalmAfter env trail) (idle : engine.queries = [])
    (performed : engine.performAll env deeds = some final) :
    ∃ later, final.cache.CalmAfter env later ∧ ∀ past revision,
      (past, .move revision .launch) ∈ later →
        (past, .move revision .launch) ∈ engine.steps env deeds ++ trail := by
  induction deeds generalizing engine trail with
  | nil =>
    cases performed
    exact ⟨trail, calm, fun _ _ launched => launched⟩
  | cons deed rest ih =>
    rw [Engine.performAll] at performed
    split at performed
    · rename_i next first
      cases deed with
      | resume =>
        rw [Engine.perform, idle] at first
        cases first
      | move =>
        obtain ⟨task, member, -, cache, before, rfl, after, -⟩ := taskStep_of_perform calm first
        have silent : (engine.withCache cache).queries = [] := idle
        obtain ⟨later, reached, covered⟩ := ih after silent performed
        refine ⟨later, reached, fun past revision launched => ?_⟩
        rw [steps, first]
        dsimp only
        rw [List.append_assoc]
        refine (List.mem_append.mp (covered past revision launched)).elim
          (List.mem_append_left _) fun early => List.mem_append_right _ ?_
        -- Changing the files on the disk starts no parser.
        rcases List.mem_cons.mp early with now | early
        · exact List.mem_append_left _ (List.mem_singleton.mpr now)
        · exact List.mem_append_right _ ((List.mem_cons.mp early).resolve_left nofun)
    · cases performed

/-- A step of a task is paid for and keeps the queries waiting. -/
theorem Tended.move (tended : engine.Tended env) {files : FileSystem} {id : Identity}
    {revision : Nat} {move : Move}
    (performed : engine.perform env (.move files id revision move) = some next) :
    next.Tended env ∧ engine.Pays [.move files id revision move] next ∧ engine.Serves next := by
  have calm := tended.calm
  obtain ⟨trail, reached⟩ := tended.calm
  obtain ⟨task, member, rfl, cache, _, rfl, after, taken⟩ := taskStep_of_perform reached performed
  have waits := fun query found => (tended.pursued query found).taskStep calm member taken
  have looks : (engine.withCache cache).looksLeft ≤ engine.looksLeft :=
    List.sum_le_sum fun query found => (waits query found).2.1
  have starts : ∀ about, (engine.withCache cache).startsLeft about = engine.startsLeft about := by
    intro about
    refine congrArg List.sum (List.map_congr_left fun query found => ?_)
    rw [← (waits query found).2.2]
    rfl
  refine ⟨⟨⟨_, after⟩, tended.single, fun query found => (waits query found).1⟩,
    ⟨?_, fun about => ?_, ?_⟩, .inl ⟨rfl, rfl⟩⟩
  · have effort : (engine.withCache cache).cache.total Stage.effort (fun _ => true) < _ :=
      calm.coherent.effort_lt member taken
    rw [effortLeft, effortLeft, starts, List.length_singleton]
    omega
  · have due : (engine.withCache cache).cache.total Stage.due about + _ = _ :=
      calm.due_eq member taken about
    have launched : (if Deed.launches about (.move files task.id revision move) then 1 else 0) =
        if move = .launch ∧ about task.id = true then 1 else 0 := by
      cases move <;> cases counted : about task.id <;> simp [Deed.launches, counted]
    rw [dueLeft, dueLeft, starts, ← due, List.countP_singleton, launched]
    omega
  · rw [List.countP_singleton, if_neg (by exact nofun), Nat.zero_add]
    exact looks

/-- A query that waits is the only one. -/
theorem Tended.queries_eq (tended : engine.Tended env) {query : Query}
    (member : query ∈ engine.queries) : engine.queries = [query] := by
  obtain ⟨only, queries⟩ := List.length_eq_one_iff.mp
    (Nat.le_antisymm tended.single (List.length_pos_of_mem member))
  rw [queries, List.mem_singleton] at member
  rw [queries, member]

/-- A query that finds an outcome is answered with it. -/
theorem consult_of_ready {id : Identity} {cache : Cache α} {snapshot : Snapshot α}
    (looked : engine.cache.lookup id = (cache, .ok (.ready snapshot))) :
    engine.consult id = (engine.withCache cache, .done (.ok snapshot)) := by
  simp only [consult, looked]

/-- A query that finds none waits. -/
theorem consult_of_inFlight {id : Identity} {cache : Cache α} {handle : Handle}
    (looked : engine.cache.lookup id = (cache, .ok (.inFlight handle))) :
    engine.consult id = (engine.withCache cache, .waits handle) := by
  simp only [consult, looked]

/-- Where no query waits, none has anything before it. -/
theorem left_of_none (none : engine.queries = []) :
    engine.looksLeft = 0 ∧ ∀ about, engine.startsLeft about = 0 := by
  simp only [looksLeft, startsLeft, none, List.map_nil, List.sum_nil, implies_true, and_self]

/-- What the only query has before it is all there is. -/
theorem left_of_single {query : Query} (only : engine.queries = [query]) :
    engine.looksLeft = engine.cache.looksLeft query.handle ∧ ∀ about, engine.startsLeft about =
      if about query.handle.id then engine.cache.startsLeft query.handle.id else 0 := by
  simp only [looksLeft, startsLeft, only, List.map_singleton, List.sum_singleton, implies_true,
    and_self]

/-- A query that a look-up has left to wait, as the only one, is tended, and what it has before it
was known before the look-up. -/
theorem tended_of_joins {id : Identity} {number : Nat} {cache : Cache α} {handle : Handle}
    (joins : engine.cache.Joins env id cache handle) (looked : next.cache = cache)
    (waits : next.queries = [⟨number, handle⟩]) :
    next.Tended env ∧ next.looksLeft = cache.looksLeft handle ∧
      next.effortLeft = engine.cache.total Stage.effort (fun _ => true) +
        6 * engine.cache.startsLeft id + cache.looksLeft handle ∧
      ∀ about, next.dueLeft about = engine.cache.total Stage.due about +
        if about id then engine.cache.startsLeft id else 0 := by
  obtain ⟨looks, starts⟩ := left_of_single waits
  rw [looked] at looks
  simp only [looked, joins.named] at starts
  refine ⟨⟨?_, ?_, ?_⟩, looks, ?_, fun about => ?_⟩
  · rw [looked]
    exact joins.calm
  · rw [waits]
    exact Nat.le_refl 1
  · rw [waits, looked]
    intro other found
    rw [List.mem_singleton.mp found]
    exact joins.pursued
  · rw [effortLeft, looked, looks, starts, if_pos rfl, joins.effort]
  · rw [dueLeft, looked, starts, joins.due]

/-- A query that goes on is paid for, and is answered with an outcome or waits for another parse. -/
theorem Tended.resume (tended : engine.Tended env) {number : Nat}
    (performed : engine.perform env (.resume number) = some next) :
    next.Tended env ∧ engine.Pays [.resume number] next ∧ engine.Serves next := by
  have calm := tended.calm
  obtain ⟨query, found, resumed⟩ := Option.bind_eq_some_iff.mp performed
  have member := List.mem_of_find?_eq_some found
  have only := tended.queries_eq member
  obtain ⟨looks, starts⟩ := left_of_single only
  have one : [Deed.resume number].countP Deed.isResume = 1 := rfl
  have launched : ∀ about, [Deed.resume number].countP (Deed.launches about) = 0 := fun _ => rfl
  cases tended.pursued query member with
  | marked incomplete mark =>
    -- A query whose parse is on its way cannot go on.
    rw [Engine.resume, calm.progress_of_mark incomplete mark] at resumed
    cases resumed
  | ended finished clean =>
    rw [Engine.resume, progress_of_finished finished] at resumed
    rcases calm.lookup_cases query.handle.id with ⟨snapshot, looked, none⟩ | ⟨cache, handle, joins⟩
    · -- There is an outcome, and the query is answered.
      rw [consult_of_ready looked] at resumed
      have same := Option.some.inj resumed
      have sameCache : next.cache = engine.cache := by rw [← same]; rfl
      have ended : next.queries = [] := by rw [← same]; simp [answer, withCache, only]
      have answered : next.answers = engine.answers ++ [(query.number, .ok snapshot)] := by
        rw [← same]
        rfl
      obtain ⟨looks', starts'⟩ := left_of_none ended
      have pos := engine.cache.looksLeft_pos query.handle
      refine ⟨⟨?_, ?_, ?_⟩, ⟨?_, fun about => ?_, ?_⟩, .inr ⟨_, snapshot, ?_, ended, answered⟩⟩
      · rw [sameCache]
        exact calm
      · rw [ended]
        exact Nat.zero_le 1
      · rw [ended]
        exact nofun
      · rw [effortLeft, effortLeft, sameCache, looks', starts', looks, List.length_singleton]
        omega
      · rw [dueLeft, dueLeft, sameCache, starts', starts, none, launched, ite_self]
        omega
      · rw [looks', looks, one]
        exact pos
      · rw [only]
        rfl
    · -- There is none, and the query waits for the parse that is on its way now.
      rw [consult_of_inFlight joins.looked] at resumed
      have same := Option.some.inj resumed
      have sameCache : next.cache = cache := by rw [← same]; rfl
      have waits : next.queries = [⟨query.number, handle⟩] := by
        rw [← same]
        simp [withCache, only]
      have silent : next.answers = engine.answers := by rw [← same]; rfl
      obtain ⟨tended', looks', effort', due'⟩ := tended_of_joins joins sameCache waits
      have last := joins.last clean
      have again := joins.again query.handle rfl finished
      refine ⟨tended', ⟨?_, fun about => ?_, ?_⟩, .inl ⟨?_, silent⟩⟩
      · rw [effort', effortLeft, looks, starts, last, again, if_pos rfl, List.length_singleton]
        omega
      · rw [due', dueLeft, starts, launched, Nat.zero_add]
      · rw [looks', looks, last, again, one]
      · rw [waits, only]
        rfl

/-- Every deed is paid for, and the query is answered with an outcome or waits. -/
theorem Tended.perform (tended : engine.Tended env)
    (performed : engine.perform env deed = some next) :
    next.Tended env ∧ engine.Pays [deed] next ∧ engine.Serves next := by
  cases deed with
  | move => exact tended.move performed
  | resume => exact tended.resume performed

/-- So are any number of deeds. -/
theorem Tended.performAll (tended : engine.Tended env)
    (performed : engine.performAll env deeds = some final) :
    final.Tended env ∧ engine.Pays deeds final ∧ engine.Serves final := by
  induction deeds generalizing engine with
  | nil =>
    cases performed
    exact ⟨tended, .refl _, .refl _⟩
  | cons deed rest ih =>
    rw [Engine.performAll] at performed
    split at performed
    · rename_i next first
      obtain ⟨tended', pays, serves⟩ := tended.perform first
      obtain ⟨tended'', pays', serves'⟩ := ih tended' performed
      exact ⟨tended'', pays.cons pays', serves.trans serves'⟩
    · cases performed

/-- Where no query waits, a file for which nothing is held, or the mark of a closed document, stays
such a file. -/
theorem Tended.released (tended : engine.Tended env) (idle : engine.queries = [])
    (performed : engine.performAll env deeds = some final) {id : Identity}
    (released : engine.cache.entries.get? id = none ∨
      ∃ revision dirty, engine.cache.entries.get? id = some (.pending revision dirty true)) :
    final.cache.entries.get? id = none ∨
      ∃ revision dirty, final.cache.entries.get? id = some (.pending revision dirty true) := by
  induction deeds generalizing engine with
  | nil =>
    cases performed
    exact released
  | cons deed rest ih =>
    rw [Engine.performAll] at performed
    split at performed
    · rename_i next first
      cases deed with
      | move =>
        obtain ⟨trail, reached⟩ := tended.calm
        obtain ⟨task, member, -, cache, _, rfl, -, taken⟩ := taskStep_of_perform reached first
        exact ih (tended.move first).1 idle performed
          (tended.calm.released_of_taskStep member taken released)
      | resume =>
        rw [Engine.perform, idle] at first
        cases first
    · cases performed

/-- Where all tasks are over, none of them can do anything. -/
theorem perform_of_ended (env : Environment α) (tasks : engine.cache.tasks = [])
    (files : FileSystem) (id : Identity) (revision : Nat) (move : Move) :
    engine.perform env (.move files id revision move) = none := by
  simp only [Engine.perform, tasks, List.any_nil, Bool.false_eq_true, if_false]

/-- An engine is at rest when all tasks are over and all queries are answered. -/
theorem Tended.ended (tended : engine.Tended env) (workers : 0 < env.workers)
    (rest : engine.AtRest env) : engine.cache.tasks = [] ∧ engine.queries = [] := by
  have calm := tended.calm
  have ended : engine.cache.tasks = [] := by
    by_contra working
    obtain ⟨task, member, move, cache, applied⟩ := calm.exists_move workers working env.files
    have none := rest (.move env.files task.id task.revision move)
    rw [perform_move calm.coherent member, applied] at none
    cases none
  refine ⟨ended, ?_⟩
  by_contra waiting
  obtain ⟨query, member⟩ := List.exists_mem_of_ne_nil _ waiting
  have only := tended.queries_eq member
  have none := rest (.resume query.number)
  rw [Engine.perform, only, List.find?_singleton, if_pos (decide_eq_true rfl), Option.bind_some,
    Engine.resume] at none
  cases tended.pursued query member with
  | marked _ mark =>
    obtain ⟨task, member, -⟩ := calm.coherent.marked _ _ _ _ mark
    rw [ended] at member
    cases member
  | ended finished =>
    rw [progress_of_finished finished] at none
    dsimp only at none
    split at none <;> cases none

/-- Where all tasks are over and all queries are answered, there is nothing more to do. -/
theorem atRest_of_ended (env : Environment α) (tasks : engine.cache.tasks = [])
    (queries : engine.queries = []) : engine.AtRest env := by
  intro deed
  cases deed with
  | move => exact perform_of_ended env tasks ..
  | resume => rw [Engine.perform, queries, List.find?_nil, Option.bind_none]

/-- A query that is asked is answered at once, or waits with at most two look-ups before it and the
start of a parse, if it had to start one. -/
theorem ask_cases (calm : engine.cache.Calm env) (idle : engine.queries = []) (number : Nat)
    (id : Identity) :
    (∃ snapshot, engine.ask number id = (engine, some (.ok snapshot))) ∨
    ∃ asked, engine.ask number id = (asked, none) ∧ asked.Tended env ∧
      asked.queries.map Query.number = [number] ∧ asked.answers = engine.answers ∧
      asked.looksLeft ≤ 2 ∧
      asked.effortLeft ≤ engine.cache.total Stage.effort (fun _ => true) +
        6 * engine.cache.startsLeft id + 2 ∧
      asked.dueLeft (fun other => other = id) =
        engine.cache.total Stage.due (fun other => other = id) + engine.cache.startsLeft id := by
  rcases calm.lookup_cases id with ⟨snapshot, looked, -⟩ | ⟨cache, handle, joins⟩
  · refine .inl ⟨snapshot, ?_⟩
    rw [ask, consult_of_ready looked]
    rfl
  · have waits : engine.ask number id =
        ({ engine.withCache cache with queries := [⟨number, handle⟩] }, none) := by
      rw [ask, consult_of_inFlight joins.looked]
      dsimp only
      rw [show (engine.withCache cache).queries = [] from idle]
      rfl
    generalize made : ({ engine.withCache cache with queries := [⟨number, handle⟩] } : Engine α) =
      asked at waits
    have looked : asked.cache = cache := by rw [← made]; rfl
    have only : asked.queries = [⟨number, handle⟩] := by rw [← made]
    have silent : asked.answers = engine.answers := by rw [← made]; rfl
    obtain ⟨tended, looks, effort, due⟩ := tended_of_joins joins looked only
    have bound := cache.looksLeft_le_two handle
    refine .inr ⟨asked, waits, tended, ?_, silent, ?_, ?_, ?_⟩
    · rw [only]
      rfl
    · rw [looks]
      exact bound
    · rw [effort]
      omega
    · rw [due, if_pos (decide_eq_true rfl)]

end

end Engine

/-! ## The work comes to rest -/

/-- How often the parser is run for the parses on their way: once for each mark, and once more for
each dirty one. -/
def Cache.runs (cache : Cache α) : Nat :=
  (cache.entries.keys.filter cache.isInFlight).length +
    (cache.entries.keys.filter cache.isDirty).length

section

variable {env : Environment α} {world : World α} {trail : List (World α × Action)}

/-- The runs of the parser are what the parses on their way stand for. -/
theorem Cache.Calm.runs_eq {cache : Cache α} (calm : cache.Calm env) :
    cache.total Stage.load (fun _ => true) = cache.runs := by
  have flying : ∀ id, (cache.isInFlight id && (true && cache.isDirty id)) = cache.isDirty id := by
    intro id
    cases entry : cache.entries.get? id with
    | none => simp only [isInFlight, isDirty, entry, Bool.false_and]
    | some held =>
      cases held <;> simp only [isInFlight, isDirty, entry, Bool.true_and, Bool.false_and]
  rw [calm.total_load, runs]
  simp only [flying, Bool.and_true]

namespace Engine.Tended

variable {engine asked final : Engine α} {deeds : List Deed}

/-- While no query waits, there is a bound on the deeds. -/
theorem length_le (tended : engine.Tended env) (idle : engine.queries = [])
    (performed : engine.performAll env deeds = some final) :
    deeds.length ≤ 6 * engine.cache.runs + engine.cache.tasks.length := by
  have paid := (tended.performAll performed).2.1.effort
  have effort := engine.cache.effort_le
  obtain ⟨looks, starts⟩ := left_of_none idle
  rw [tended.calm.runs_eq] at effort
  unfold effortLeft at paid
  rw [looks, starts] at paid
  omega

/-- While no query waits, the parser is started as often as the parses on their way stand for. -/
theorem launches_eq (tended : engine.Tended env) (workers : 0 < env.workers)
    (idle : engine.queries = []) (performed : engine.performAll env deeds = some final)
    (rest : final.AtRest env) :
    deeds.countP (Deed.launches fun _ => true) + engine.cache.begun (fun _ => true) =
      engine.cache.runs := by
  obtain ⟨after, pays, -⟩ := tended.performAll performed
  obtain ⟨ended, silent⟩ := after.ended workers rest
  have paid := pays.due fun _ => true
  have reckoned := engine.cache.due_add_begun fun _ => true
  rw [tended.calm.runs_eq] at reckoned
  -- Without tasks and queries nothing is left to be started.
  have nothing : final.dueLeft (fun _ => true) = 0 := by
    rw [dueLeft, (left_of_none silent).2, total, ended]
    rfl
  rw [nothing, dueLeft, (left_of_none idle).2] at paid
  omega

/-- While no query waits, nothing is held in the end where the mark of a closed document was. -/
theorem get?_of_closed (tended : engine.Tended env) (workers : 0 < env.workers)
    (idle : engine.queries = []) (performed : engine.performAll env deeds = some final)
    (rest : final.AtRest env) {id : Identity} {revision : Nat} {dirty : Bool}
    (closed : engine.cache.entries.get? id = some (.pending revision dirty true)) :
    final.cache.entries.get? id = none := by
  obtain ⟨after, -, -⟩ := tended.performAll performed
  obtain ⟨ended, -⟩ := after.ended workers rest
  rcases tended.released idle performed (.inr ⟨revision, dirty, closed⟩) with gone | ⟨_, _, mark⟩
  · exact gone
  · have flying := isInFlight_iff.mpr ⟨_, _, _, mark⟩
    rw [after.calm.not_inFlight ended] at flying
    cases flying

/-- A query that waits is answered with an outcome, if it is, and when there is nothing more to do
it has been answered. -/
theorem answers_cases (tended : asked.Tended env) (workers : 0 < env.workers) {number : Nat}
    (named : asked.queries.map Query.number = [number])
    (performed : asked.performAll env deeds = some final) :
    (final.answers = asked.answers ∨ ∃ snapshot,
      final.answers = asked.answers ++ [(number, .ok snapshot)]) ∧
    (final.AtRest env → ∃ snapshot,
      final.answers = asked.answers ++ [(number, .ok snapshot)]) := by
  obtain ⟨after, -, serves⟩ := tended.performAll performed
  rw [Serves, named] at serves
  rcases serves with ⟨still, same⟩ | ⟨_, snapshot, only, -, answered⟩
  · refine ⟨.inl same, fun rest => ?_⟩
    rw [(after.ended workers rest).2] at still
    cases still
  · cases only
    exact ⟨.inr ⟨snapshot, answered⟩, fun _ => ⟨snapshot, answered⟩⟩

end Engine.Tended

/-- Take calls and stores as undivided, and let the clients be silent while no query waits and the
end of the work has not begun. No mark is dirty and closed. In whatever order the tasks take their
steps, and whatever happens on the disk, there is a bound on their number; and when none can be
taken any more, the parser has been started for each mark that was there and once more for each
dirty one, reckoning with those that had been started already, no parse is on its way, every open
document has the outcome of its text with the source roots at the launch of its parse, and nothing
is held where the mark of a closed document was. And a query for any file is answered at once, or
after at most two more look-ups and two runs of the parser on the file, reckoning with one that had
begun; it is answered with an outcome, and when nothing can be done any more it has been answered.
-/
theorem work_comes_to_rest (run : Run env world trail) (undivided : Undivided trail)
    (quiet : world.calls = []) (accepting : world.cache.accepting = true)
    (processors : 0 < env.processors) {engine : Engine α} (same : engine.cache = world.cache)
    (idle : engine.queries = []) :
    (∀ id revision, engine.cache.entries.get? id ≠ some (.pending revision true true)) ∧
    (∀ deeds final, engine.performAll env deeds = some final →
      deeds.length ≤ 6 * engine.cache.runs + engine.cache.tasks.length ∧
      (final.AtRest env →
        deeds.countP (Deed.launches fun _ => true) + engine.cache.begun (fun _ => true) =
          engine.cache.runs ∧
        (∀ id, final.cache.isInFlight id = false) ∧
        (∀ id document, final.cache.documents.get? id = some document → ∃ snapshot past,
          final.cache.cached? id = some snapshot ∧
          (past, .move snapshot.revision .launch) ∈ engine.steps env deeds ++ trail ∧
          snapshot.outcome = Parse.run env.parser id ⟨document.text, past.cache.roots⟩) ∧
        ∀ id revision dirty,
          engine.cache.entries.get? id = some (.pending revision dirty true) →
          final.cache.entries.get? id = none)) ∧
    ∀ number id, (∃ snapshot, engine.ask number id = (engine, some (.ok snapshot))) ∨
      ∃ asked, engine.ask number id = (asked, none) ∧
        ∀ deeds final, asked.performAll env deeds = some final →
          deeds.length ≤ 6 * engine.cache.runs + engine.cache.tasks.length + 8 ∧
          deeds.countP Deed.isResume ≤ 2 ∧
          deeds.countP (Deed.launches fun other => other = id) +
            engine.cache.begun (fun other => other = id) ≤ 2 ∧
          (final.answers = engine.answers ∨ ∃ snapshot,
            final.answers = engine.answers ++ [(number, .ok snapshot)]) ∧
          (final.AtRest env → ∃ snapshot,
            final.answers = engine.answers ++ [(number, .ok snapshot)]) := by
  have workers := Environment.workers_pos processors
  have reached : engine.cache.CalmAfter env trail := by
    obtain ⟨cache, files, calls⟩ := world
    cases quiet
    rw [same]
    exact ⟨files, run, undivided.serial, undivided.sober, accepting⟩
  have calm : engine.cache.Calm env := ⟨trail, reached⟩
  have tended : engine.Tended env := by
    refine ⟨calm, ?_, ?_⟩
    · rw [idle]
      exact Nat.zero_le 1
    · rw [idle]
      exact nofun
  refine ⟨calm.unmixed, fun deeds final performed => ⟨tended.length_le idle performed, ?_⟩,
    fun number id => ?_⟩
  · intro rest
    obtain ⟨after, -, -⟩ := tended.performAll performed
    obtain ⟨ended, -⟩ := after.ended workers rest
    obtain ⟨later, gone, covered⟩ := Engine.calmAfter_of_performAll reached idle performed
    refine ⟨tended.launches_eq workers idle performed rest, after.calm.not_inFlight ended,
      fun id document opened => ?_,
      fun id revision dirty => tended.get?_of_closed workers idle performed rest⟩
    obtain ⟨snapshot, past, held, launched, outcome⟩ := gone.outcome_of_open ended opened
    exact ⟨snapshot, past, held, covered _ _ launched, outcome⟩
  · rcases Engine.ask_cases calm idle number id with
      answered | ⟨asked, waits, served, named, silent, looks, bound, due⟩
    · exact .inl answered
    · refine .inr ⟨asked, waits, fun deeds final performed => ?_⟩
      obtain ⟨-, pays, -⟩ := served.performAll performed
      have answers := served.answers_cases workers named performed
      rw [silent] at answers
      refine ⟨?_, ?_, ?_, answers⟩
      · have paid := pays.effort
        have effort := engine.cache.effort_le
        have starts := engine.cache.startsLeft_le_one id
        rw [calm.runs_eq] at effort
        omega
      · have paid := pays.looks
        omega
      · have paid := pays.due fun other => other = id
        have reckoned := engine.cache.due_add_begun fun other => other = id
        have load := calm.load_add_startsLeft_le id
        omega

/-- The text of a document is changed while its parser is running, and another document is closed
after its task has looked it up: the parser is started twice more, and in the end the first document
has the outcome of its second text and nothing is held for the other one, unless it is asked for. -/
theorem work_comes_to_rest_after_edit : ∃ world trail, ∃ engine final : Engine Unit, ∃ deeds,
    Run (Trial.env 2) world trail ∧ Undivided trail ∧ engine.cache = world.cache ∧
    engine.cache.runs = 3 ∧ engine.cache.begun (fun _ => true) = 1 ∧
    engine.cache.entries.get? Trial.otherFile = some (.pending 2 false true) ∧
    engine.performAll (Trial.env 2) deeds = some final ∧ final.AtRest (Trial.env 2) ∧
    deeds.countP (Deed.launches fun _ => true) = 2 ∧
    final.cache.entries.get? Trial.otherFile = none ∧
    (∃ snapshot past, final.cache.cached? Trial.file = some snapshot ∧
      (past, .move snapshot.revision .launch) ∈ engine.steps (Trial.env 2) deeds ++ trail ∧
      snapshot.outcome = Parse.run (Trial.env 2).parser Trial.file ⟨"sound", past.cache.roots⟩) ∧
    ∃ asked, engine.ask 0 Trial.otherFile = (asked, none) ∧
      ∀ deeds final, asked.performAll (Trial.env 2) deeds = some final →
        deeds.countP Deed.isResume ≤ 2 ∧
        (final.AtRest (Trial.env 2) → ∃ snapshot, final.answers = [(0, .ok snapshot)]) := by
  obtain ⟨world, trail, run, undivided, quiet, accepting, engine, same, idle, silent, runs, begun,
      closed, waits, deeds, final, performed, opened, tasks, queries⟩ : ∃ world trail,
      Run (Trial.env 2) world trail ∧ Undivided trail ∧ world.calls = [] ∧
      world.cache.accepting = true ∧ ∃ engine : Engine Unit, engine.cache = world.cache ∧
      engine.queries = [] ∧ engine.answers = [] ∧ engine.cache.runs = 3 ∧
      engine.cache.begun (fun _ => true) = 1 ∧
      engine.cache.entries.get? Trial.otherFile = some (.pending 2 false true) ∧
      (engine.ask 0 Trial.otherFile).2.isNone = true ∧
      ∃ deeds final, engine.performAll (Trial.env 2) deeds = some final ∧
      final.cache.documents.get? Trial.file = some (Trial.document "sound") ∧
      final.cache.tasks = [] ∧ final.queries = [] :=
    ⟨_, _, (Trial.start 2).follow
      [.update Trial.file (Trial.document "unsound"), .proceed (.revise Trial.file false),
        .proceed (.request Trial.file), .move 1 .assignWorker, .move 1 .readDocument,
        .move 1 .launch, .update Trial.file (Trial.document "sound"),
        .proceed (.revise Trial.file false), .update Trial.otherFile (Trial.document "sound"),
        .proceed (.revise Trial.otherFile false), .proceed (.request Trial.otherFile),
        .move 2 .assignWorker, .move 2 .readDocument, .close Trial.otherFile,
        .proceed (.evict Trial.otherFile)] rfl, by decide, rfl, rfl,
      ⟨⟨_, Table.empty⟩, [], []⟩, rfl, rfl, rfl, rfl, rfl, rfl, rfl,
      [.move (Trial.env 2).files Trial.file 1 .complete,
        .move (Trial.env 2).files Trial.otherFile 2 .launch,
        .move (Trial.env 2).files Trial.file 1 .store,
        .move (Trial.env 2).files Trial.file 3 .assignWorker,
        .move (Trial.env 2).files Trial.otherFile 2 .complete,
        .move (Trial.env 2).files Trial.file 3 .readDocument,
        .move (Trial.env 2).files Trial.otherFile 2 .store,
        .move (Trial.env 2).files Trial.file 3 .launch,
        .move (Trial.env 2).files Trial.otherFile 2 .discard,
        .move (Trial.env 2).files Trial.file 3 .complete,
        .move (Trial.env 2).files Trial.file 3 .store,
        .move (Trial.env 2).files Trial.file 3 .publish], _, rfl, rfl, rfl, rfl⟩
  obtain ⟨-, winding, asking⟩ :=
    work_comes_to_rest run undivided quiet accepting Nat.two_pos same idle
  have rest := Engine.atRest_of_ended (Trial.env 2) tasks queries
  obtain ⟨launched, -, ready, gone⟩ := (winding deeds final performed).2 rest
  rw [runs, begun] at launched
  refine ⟨world, trail, engine, final, deeds, run, undivided, same, runs, begun, closed, performed,
    rest, by omega, gone _ _ _ closed, ready _ _ opened, ?_⟩
  rcases asking 0 Trial.otherFile with ⟨snapshot, answered⟩ | ⟨asked, waiting, bounded⟩
  · rw [answered] at waits
    cases waits
  · refine ⟨asked, waiting, fun deeds final performed => ?_⟩
    obtain ⟨-, looks, -, -, answered⟩ := bounded deeds final performed
    rw [silent] at answered
    exact ⟨looks, answered⟩

end

end DiagnosticServer
