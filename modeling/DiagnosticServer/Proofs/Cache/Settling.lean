import DiagnosticServer.Proofs.Cache.Inquiry

/-!
# The engine settles

Between the calls of its clients an engine moves until nothing moves any more, and it gives up after
`Engine.patience` moves. That these are enough does not follow from what is said of a calm cache and
a single query: any number of queries may wait, documents may have been reopened while their entries
were about to be dropped, and the end of the work may have begun.

The `demand` of a query is what it has before it: the look-up by which it is answered, one more if
the mark that is there is not that of the parse it waits for, and the steps of a parse with another
look-up if the entry may still give way. No step of a task makes a demand grow, and a query that
goes on leaves less. So every deed, in whatever order they are done, lowers the `burden` of the
engine, which is at most its patience (`Engine.burden_le_patience`). From this follow
`Run.next_settle` and `Engine.inquire_answers`.
-/

namespace DiagnosticServer

variable {α : Type}

/-- A parse has at most the steps of one task before it, and those of another one. -/
theorem Stage.effort_le_twelve (dirty : Bool) (stage : Stage α) : stage.effort dirty ≤ 12 := by
  cases stage <;> cases dirty <;> simp [effort, isAwaited, isUnsettled, rank]

namespace Cache

/-! ## What a query has before it -/

/-- Whether the task of that revision is about to drop its entry. -/
def isCondemned (cache : Cache α) (revision : Nat) : Bool :=
  cache.tasks.any fun task => task.revision = revision && decide (task.stage = .condemned)

/-- Whether a parse of a file may still be started without a client asking for one: nothing is held
for the file, or the mark that is there will give way to nothing or to another mark. -/
def mayReparse (cache : Cache α) (id : Identity) : Bool :=
  cache.accepting && match cache.entries.get? id with
    | none => true
    | some (.ready _ _) => false
    | some (.pending revision dirty closed) => dirty || closed || cache.isCondemned revision

/-- Whether the mark that is there for a file is not that of the parse which a handle names, or the
handle waits for no mark. -/
def isStale (cache : Cache α) (handle : Handle) : Bool :=
  match cache.entries.get? handle.id with
  | some (.pending revision _ _) => handle.complete || decide (revision ≠ handle.revision)
  | _ => false

/-- How much a query that holds that handle has before it, at most: look-ups, and the steps of a
parse. -/
def demand (cache : Cache α) (handle : Handle) : Nat :=
  1 + 7 * (cache.mayReparse handle.id).toNat + (cache.isStale handle).toNat

/-- How much those queries have before them. -/
def demands (cache : Cache α) (queries : List Query) : Nat :=
  (queries.map fun query => cache.demand query.handle).sum

section

variable {env : Environment α} {cache next : Cache α} {task : Task α} {move : Move}
  {id : Identity} {handle : Handle}

/-- What queries have before them is what one of them has and what the others have. -/
theorem demands_of_perm {queries others : List Query} {query : Query}
    (perm : queries.Perm (query :: others)) :
    cache.demands queries = cache.demand query.handle + cache.demands others := by
  unfold demands
  rw [(perm.map fun query => cache.demand query.handle).sum_nat, List.map_cons, List.sum_cons]

/-- The cases in which another parse may be started. -/
theorem mayReparse_iff : cache.mayReparse id = true ↔ cache.accepting = true ∧
    (cache.entries.get? id = none ∨ ∃ revision dirty closed,
      cache.entries.get? id = some (.pending revision dirty closed) ∧
      (dirty = true ∨ closed = true ∨
        ∃ task ∈ cache.tasks, task.revision = revision ∧ task.stage = .condemned)) := by
  have condemned : ∀ revision, cache.isCondemned revision = true ↔
      ∃ task ∈ cache.tasks, task.revision = revision ∧ task.stage = .condemned := by
    simp [isCondemned]
  unfold mayReparse
  rw [Bool.and_eq_true]
  refine and_congr_right fun _ => ?_
  cases entry : cache.entries.get? id with
  | none => simp
  | some held =>
    cases held with
    | ready => simp
    | pending revision dirty closed =>
      simp only [Bool.or_eq_true, condemned, or_assoc]
      constructor
      · exact fun gives => .inr ⟨revision, dirty, closed, rfl, gives⟩
      · rintro (⟨⟨⟩⟩ | ⟨_, _, _, ⟨⟩, gives⟩)
        exact gives

/-- The cases in which a handle is stale. -/
theorem isStale_iff : cache.isStale handle = true ↔ ∃ revision dirty closed,
    cache.entries.get? handle.id = some (.pending revision dirty closed) ∧
    (handle.complete = true ∨ revision ≠ handle.revision) := by
  unfold isStale
  cases entry : cache.entries.get? handle.id with
  | none => simp
  | some held => cases held <;> simp

/-- A query can go on when its handle waits for no mark or the parse which it names is over. -/
theorem complete_or_finished (went : cache.progress handle = .finished) :
    handle.complete = true ∨ handle.revision ∈ cache.finished := by
  unfold progress at went
  split_ifs at went with ended
  simpa using ended

/-- There is always a look-up to come. -/
theorem demand_pos (cache : Cache α) (handle : Handle) : 0 < cache.demand handle := by
  unfold demand
  omega

/-- No query has more before it than a parse and three look-ups. -/
theorem demand_le_nine (cache : Cache α) (handle : Handle) : cache.demand handle ≤ 9 := by
  have parse := Bool.toNat_le (cache.mayReparse handle.id)
  have stale := Bool.toNat_le (cache.isStale handle)
  unfold demand
  omega

/-- A query has no more before it than another one that holds a handle of the same file, if it has
no reason for more. -/
theorem demand_mono {other : Handle}
    (parse : next.mayReparse handle.id = true → cache.mayReparse other.id = true)
    (stale : next.isStale handle = true → cache.isStale other = true) :
    next.demand handle ≤ cache.demand other := by
  have first := Bool.toNat_le_toNat (Bool.le_iff_imp.mpr parse)
  have second := Bool.toNat_le_toNat (Bool.le_iff_imp.mpr stale)
  unfold demand
  omega

/-- Where no other parse may be started, the query has at most two look-ups before it, which is less
than where one may be. -/
theorem demand_le_of_settled (settled : next.mayReparse handle.id = false)
    (may : cache.mayReparse handle.id = true) : next.demand handle + 6 ≤ cache.demand handle := by
  have stale := Bool.toNat_le (next.isStale handle)
  unfold demand
  rw [settled, may, Bool.toNat_false, Bool.toNat_true]
  omega

/-- A mark will not give way if it is neither dirty nor closed and its task is not about to drop it.
-/
theorem mayReparse_of_mark {revision : Nat}
    (mark : cache.entries.get? id = some (.pending revision false false))
    (waits : ∀ task ∈ cache.tasks, task.revision = revision → task.stage ≠ .condemned) :
    cache.mayReparse id = false := by
  refine Bool.eq_false_iff.mpr fun may => ?_
  obtain ⟨-, gone | ⟨_, _, _, entry, gives⟩⟩ := mayReparse_iff.mp may
  · rw [gone] at mark
    cases mark
  · rw [mark] at entry
    cases entry
    obtain ⟨⟨⟩⟩ | ⟨⟨⟩⟩ | ⟨task, member, named, stage⟩ := gives
    exact waits task member named stage

/-- A query that finds an outcome has one look-up before it. -/
theorem demand_of_ready {revision : Nat} {outcome : Outcome α}
    (entry : cache.entries.get? handle.id = some (.ready revision outcome)) :
    cache.demand handle = 1 := by
  simp [demand, mayReparse, isStale, entry]

/-- Where the entry stays, a query has no more before it, unless a task is now about to drop the
mark. -/
theorem demand_le_of_same (same : next.entries.get? handle.id = cache.entries.get? handle.id)
    (accepting : next.accepting = true → cache.accepting = true)
    (condemned : ∀ revision dirty closed,
      cache.entries.get? handle.id = some (.pending revision dirty closed) →
      ∀ task ∈ next.tasks, task.revision = revision → task.stage = .condemned →
        closed = true ∨ ∃ task ∈ cache.tasks, task.revision = revision ∧ task.stage = .condemned) :
    next.demand handle ≤ cache.demand handle := by
  refine demand_mono (fun may => ?_) fun stale => ?_
  · rw [mayReparse_iff, same] at may
    obtain ⟨may, gone | ⟨revision, dirty, closed, entry, gives⟩⟩ := may
    · exact mayReparse_iff.mpr ⟨accepting may, .inl gone⟩
    · refine mayReparse_iff.mpr ⟨accepting may, .inr ⟨revision, dirty, closed, entry, ?_⟩⟩
      rcases gives with dirty | closed | ⟨task, member, named, stage⟩
      · exact .inl dirty
      · exact .inr (.inl closed)
      · exact .inr (condemned _ _ _ entry task member named stage)
  · rw [isStale_iff, same] at stale
    exact isStale_iff.mpr stale

/-- No step of a task gives a query more to do. -/
theorem Coherent.demand_le_of_taskStep (coherent : Coherent cache)
    (admitting : cache.accepting = true → cache.admitting = true) (member : task ∈ cache.tasks)
    (taken : TaskStep env cache task move next) (handle : Handle) :
    next.demand handle ≤ cache.demand handle := by
  obtain ⟨-, accepting, -⟩ := taken.frame
  rcases taken.entry_cases handle.id with
    same | ⟨own, ⟨gone, cause⟩ | ⟨fresh, may, dirty⟩ | ⟨_, _, _, stored, -⟩⟩
  · refine demand_le_of_same same (by rw [accepting]; exact id) ?_
    intro revision dirty closed entry t ht named stage
    rcases coherent.condemned_of_taskStep member taken ht stage with ⟨ht, -⟩ | ⟨rfl, -, _, mark⟩
    · exact .inr ⟨t, ht, named, stage⟩
    · -- The task has just seen that the document was closed.
      cases named
      rw [coherent.eq_of_mark member entry, entry] at mark
      cases mark
      exact .inl rfl
  · -- The mark is dropped, which its task was about to do.
    refine demand_mono (fun may => ?_) fun stale => ?_
    · rw [mayReparse_iff, accepting] at may
      rcases cause with refused | stage
      · rw [admitting may.1] at refused
        cases refused
      · obtain ⟨dirty, closed, entry⟩ := coherent.holds task member (by rw [stage]; rfl)
          (coherent.unstopped may.1 task member)
        rw [own]
        refine mayReparse_iff.mpr ⟨may.1, .inr ⟨_, _, _, entry, .inr (.inr ?_)⟩⟩
        exact ⟨task, member, rfl, stage⟩
    · obtain ⟨_, _, _, entry, -⟩ := isStale_iff.mp stale
      rw [gone] at entry
      cases entry
  · -- A fresh mark takes the place of a dirty one.
    have settled : next.mayReparse handle.id = false := by
      refine mayReparse_of_mark fresh fun t ht named stage => ?_
      rcases coherent.condemned_of_taskStep member taken ht stage with ⟨ht, -⟩ | ⟨rfl, -⟩
      · have known := coherent.revision_le ht
        omega
      · have known := coherent.revision_le member
        change task.revision = _ at named
        omega
    have before : cache.mayReparse handle.id = true :=
      mayReparse_iff.mpr ⟨may, .inr ⟨_, _, _, dirty, .inl rfl⟩⟩
    have less := demand_le_of_settled settled before
    omega
  · rw [demand_of_ready stored]
    exact cache.demand_pos handle

/-! ## Starting a parse for a query -/

/-- Where a parse was started because nothing was held, no other one may be. -/
theorem Coherent.mayReparse_schedule (coherent : Coherent cache) (id : Identity) :
    (cache.schedule id).mayReparse id = false := by
  refine mayReparse_of_mark ((get?_schedule ..).trans (if_pos rfl)) fun t ht named stage => ?_
  rcases List.mem_append.mp ht with ht | ht
  · have known := coherent.revision_le ht
    omega
  · rw [List.mem_singleton.mp ht] at stage
    cases stage

/-- Starting a parse where nothing was held gives no query more to do. -/
theorem Coherent.demand_schedule_le (coherent : Coherent cache) (accepting : cache.accepting = true)
    (entry : cache.entries.get? id = none) (handle : Handle) :
    (cache.schedule id).demand handle ≤ cache.demand handle := by
  by_cases own : handle.id = id
  · have settled := coherent.mayReparse_schedule handle.id
    rw [← own] at entry ⊢
    have less := demand_le_of_settled settled (mayReparse_iff.mpr ⟨accepting, .inl entry⟩)
    omega
  · refine demand_le_of_same ((get?_schedule ..).trans (if_neg own)) (fun _ => accepting) ?_
    intro revision dirty closed _ t ht named stage
    rcases List.mem_append.mp ht with ht | ht
    · exact .inr ⟨t, ht, named, stage⟩
    · rw [List.mem_singleton.mp ht] at stage
      cases stage

/-- The handle of the mark that is there is not stale. -/
theorem isStale_of_mark {revision : Nat} {dirty closed : Bool}
    (mark : cache.entries.get? id = some (.pending revision dirty closed)) :
    cache.isStale ⟨id, revision, false⟩ = false := by
  simp [isStale, mark]

/-- The query that starts a parse where nothing was held has paid for it. -/
theorem Coherent.total_add_demand_lt (coherent : Coherent cache)
    (accepting : cache.accepting = true) (entry : cache.entries.get? handle.id = none) :
    (cache.schedule handle.id).total Stage.effort (fun _ => true) +
        (cache.schedule handle.id).demand ⟨handle.id, cache.lastRevision + 1, false⟩ <
      cache.total Stage.effort (fun _ => true) + cache.demand handle := by
  have mark : (cache.schedule handle.id).entries.get? handle.id =
      some (.pending (cache.lastRevision + 1) false false) := (get?_schedule ..).trans (if_pos rfl)
  have after :
      (cache.schedule handle.id).demand ⟨handle.id, cache.lastRevision + 1, false⟩ = 1 := by
    rw [demand, coherent.mayReparse_schedule, isStale_of_mark mark]
    rfl
  have before : 8 ≤ cache.demand handle := by
    rw [demand, mayReparse_iff.mpr ⟨accepting, .inl entry⟩, Bool.toNat_true]
    omega
  have parse : Stage.effort false (.queued : Stage α) = 6 := rfl
  rw [total_schedule (free_of_none entry), if_pos rfl, parse, after]
  omega

/-- A query that waits for another mark than the one that is there has less before it when it waits
for that one. -/
theorem demand_lt_of_stale {revision : Nat} {dirty closed : Bool}
    (mark : cache.entries.get? handle.id = some (.pending revision dirty closed))
    (stale : cache.isStale handle = true) :
    cache.demand ⟨handle.id, revision, false⟩ < cache.demand handle := by
  rw [demand, demand, isStale_of_mark mark, stale]
  exact Nat.lt_succ_self _

end

end Cache

open Cache

namespace Engine

/-! ## What a deed leaves -/

/-- How many deeds are left, at most, whatever is done. -/
def burden (engine : Engine α) : Nat :=
  engine.cache.total Stage.effort (fun _ => true) + engine.cache.demands engine.queries

/-- Some run has come to the cache, and the queries have different numbers. -/
structure Sound (env : Environment α) (engine : Engine α) : Prop where
  /-- A run has come to the cache. -/
  reached : ∃ world trail, Run env world trail ∧ world.cache = engine.cache
  /-- No two queries have one number. -/
  distinct : (engine.queries.map Query.number).Nodup

section

variable {env : Environment α} {engine next final : Engine α} {query : Query} {deed : Deed}
  {deeds : List Deed} {schedule : Schedule}

/-- The cache fits together. -/
theorem Sound.coherent (sound : engine.Sound env) : engine.cache.Coherent := by
  obtain ⟨world, _, run, same⟩ := sound.reached
  rw [← same]
  exact run.coherent.cache

/-- As long as parses may be started, tasks may get workers. -/
theorem Sound.admitting (sound : engine.Sound env) :
    engine.cache.accepting = true → engine.cache.admitting = true := by
  obtain ⟨world, _, run, same⟩ := sound.reached
  rw [← same]
  exact run.coherent.admitting

/-- No mark belongs to a task that is done with its entry. -/
theorem Sound.unfinished (sound : engine.Sound env) {id : Identity} {revision : Nat}
    {dirty closed : Bool}
    (mark : engine.cache.entries.get? id = some (.pending revision dirty closed)) :
    revision ∉ engine.cache.finished := by
  obtain ⟨world, _, run, same⟩ := sound.reached
  rw [← same] at mark ⊢
  exact run.unfinished mark

/-- A step of a task leaves less to do. -/
theorem Sound.move (sound : engine.Sound env) {files : FileSystem} {id : Identity}
    {revision : Nat} {move : Move}
    (performed : engine.perform env (.move files id revision move) = some next) :
    next.Sound env ∧ next.burden < engine.burden := by
  have coherent := sound.coherent
  obtain ⟨task, member, -, -, cache, applied, rfl⟩ := apply_of_perform coherent performed
  have taken : TaskStep (env.on files) engine.cache task move cache := .of_apply applied
  refine ⟨⟨?_, sound.distinct⟩, ?_⟩
  · obtain ⟨world, trail, run, same⟩ := sound.reached
    rw [← same] at member applied
    -- The step is taken with the files of the deed, whatever was on the disk before.
    have edited : Run env { world with files := files } _ := run.step (.edit files) rfl
    exact ⟨_, _, edited.move member move applied, rfl⟩
  · have effort := coherent.effort_lt member taken
    have demands : cache.demands engine.queries ≤ engine.cache.demands engine.queries :=
      List.sum_le_sum fun query _ =>
        coherent.demand_le_of_taskStep sound.admitting member taken query.handle
    exact Nat.add_lt_add_of_lt_of_le effort demands

/-- A query that is answered leaves less to do. -/
theorem Sound.answer (sound : engine.Sound env) (member : query ∈ engine.queries)
    (result : Except Error (Snapshot α)) :
    (engine.answer query.number result).Sound env ∧
      (engine.answer query.number result).burden < engine.burden := by
  refine ⟨⟨sound.reached, sound.distinct.sublist (List.filter_sublist.map _)⟩, ?_⟩
  have pos := engine.cache.demand_pos query.handle
  rw [burden, burden, demands_of_perm (perm_key sound.distinct member)]
  change engine.cache.total _ _ + engine.cache.demands (engine.queries.filter _) < _
  omega

/-- A query that a look-up leaves to wait leaves less to do, if it has less before it and the others
have no more. -/
theorem Sound.wait (sound : engine.Sound env) (member : query ∈ engine.queries) {cache : Cache α}
    {handle : Handle}
    (looked : engine.cache.lookup query.handle.id = (cache, .ok (.inFlight handle)))
    (less : cache.total Stage.effort (fun _ => true) + cache.demand handle <
      engine.cache.total Stage.effort (fun _ => true) + engine.cache.demand query.handle)
    (others : ∀ other, cache.demand other ≤ engine.cache.demand other)
    (waits : next = { engine.withCache cache with
      queries := engine.queries.map fun other =>
        if other.number = query.number then { other with handle := handle } else other }) :
    next.Sound env ∧ next.burden < engine.burden := by
  have queries : next.queries = engine.queries.map fun other =>
      if other.number = query.number then { other with handle := handle } else other := by
    rw [waits]
  have same : next.cache = cache := by
    rw [waits]
    rfl
  refine ⟨⟨?_, ?_⟩, ?_⟩
  · obtain ⟨world, trail, run, reached⟩ := sound.reached
    refine ⟨world.withCache (world.cache.lookup query.handle.id).1, _,
      run.step (.look query.handle.id) rfl, ?_⟩
    rw [same, reached, looked]
    rfl
  · have numbers : next.queries.map Query.number = engine.queries.map Query.number := by
      rw [queries, List.map_map]
      refine List.map_congr_left fun other _ => ?_
      rw [Function.comp_apply]
      split_ifs <;> rfl
    rw [numbers]
    exact sound.distinct
  · -- Only this query has another handle now.
    have after : cache.demands next.queries = cache.demand handle +
        cache.demands (engine.queries.filter fun other => other.number ≠ query.number) := by
      rw [queries]
      exact demands_of_perm (perm_change sound.distinct member fun other =>
        { other with handle := handle })
    have rest : cache.demands (engine.queries.filter fun other => other.number ≠ query.number) ≤
        engine.cache.demands (engine.queries.filter fun other => other.number ≠ query.number) :=
      List.sum_le_sum fun other _ => others other.handle
    rw [burden, burden, same, after, demands_of_perm (perm_key sound.distinct member)]
    omega

/-- A query that goes on leaves less to do. -/
theorem Sound.resume (sound : engine.Sound env) (member : query ∈ engine.queries)
    (resumed : engine.resume query = some next) :
    next.Sound env ∧ next.burden < engine.burden := by
  have coherent := sound.coherent
  rw [Engine.resume] at resumed
  split at resumed
  · cases resumed
  · cases resumed
    exact sound.answer member _
  · rename_i went
    cases entry : engine.cache.entries.get? query.handle.id with
    | none =>
      cases accepting : engine.cache.accepting with
      | true =>
        -- A parse is started, and its steps were part of what the query had before it.
        have looked := lookup_of_accepting_none accepting entry
        rw [consult_of_inFlight looked] at resumed
        exact sound.wait member looked (coherent.total_add_demand_lt accepting entry)
          (coherent.demand_schedule_le accepting entry) (Option.some.inj resumed).symm
      | false =>
        rw [consult, lookup_of_refusing_none accepting entry] at resumed
        cases resumed
        exact sound.answer member _
    | some held =>
      cases held with
      | ready revision outcome =>
        rw [consult_of_ready (lookup_of_ready entry)] at resumed
        cases resumed
        exact sound.answer member _
      | pending revision dirty closed =>
        -- The parse it has waited for is over, so the mark is that of another one.
        have stale : engine.cache.isStale query.handle = true := by
          refine isStale_iff.mpr ⟨revision, dirty, closed, entry, ?_⟩
          rcases complete_or_finished went with complete | finished
          · exact .inl complete
          · exact .inr fun same => sound.unfinished entry (same ▸ finished)
        have looked := lookup_of_mark entry
        rw [consult_of_inFlight looked] at resumed
        exact sound.wait member looked (Nat.add_lt_add_left (demand_lt_of_stale entry stale) _)
          (fun _ => Nat.le_refl _) (Option.some.inj resumed).symm

/-- Every deed leaves less to do. -/
theorem Sound.perform (sound : engine.Sound env) (performed : engine.perform env deed = some next) :
    next.Sound env ∧ next.burden < engine.burden := by
  cases deed with
  | move => exact sound.move performed
  | resume =>
    obtain ⟨query, found, resumed⟩ := Option.bind_eq_some_iff.mp performed
    exact sound.resume (List.mem_of_find?_eq_some found) resumed

/-- So there is a bound on the deeds, in whatever order they are done. -/
theorem Sound.performAll (sound : engine.Sound env)
    (performed : engine.performAll env deeds = some final) :
    final.Sound env ∧ deeds.length + final.burden ≤ engine.burden := by
  induction deeds generalizing engine with
  | nil =>
    cases performed
    exact ⟨sound, Nat.le_of_eq (Nat.zero_add _)⟩
  | cons deed rest ih =>
    rw [Engine.performAll] at performed
    split at performed
    · rename_i next first
      obtain ⟨later, less⟩ := sound.perform first
      obtain ⟨last, bound⟩ := ih later performed
      refine ⟨last, ?_⟩
      rw [List.length_cons]
      omega
    · cases performed

/-- The engine has the patience for all deeds that are left. -/
theorem burden_le_patience (engine : Engine α) : engine.burden ≤ engine.patience := by
  have tasks : engine.cache.total Stage.effort (fun _ => true) ≤
      engine.cache.tasks.length * 12 := by
    refine (List.sum_le_card_nsmul _ 12 fun steps among => ?_).trans_eq (by simp)
    obtain ⟨task, -, rfl⟩ := List.mem_map.mp among
    rw [if_pos rfl]
    exact task.stage.effort_le_twelve _
  have queries : engine.cache.demands engine.queries ≤ engine.queries.length * 9 := by
    refine (List.sum_le_card_nsmul _ 9 fun steps among => ?_).trans_eq (by simp)
    obtain ⟨query, -, rfl⟩ := List.mem_map.mp among
    exact engine.cache.demand_le_nine query.handle
  unfold burden patience
  omega

/-! ## Moves are deeds -/

/-- The tasks whose turn comes are those that were not told to stop and whose parsers are running.
-/
theorem mem_inTurn {task : Task α} : task ∈ engine.inTurn schedule ↔
    task ∈ engine.cache.tasks ∧ task.aborted = false ∧
      ∃ uri call, task.stage = .parsing uri call := by
  rw [inTurn, List.mem_mergeSort, releasable, List.mem_filter]
  cases stage : task.stage <;> simp

/-- The next move is a deed. -/
theorem Sound.exists_perform (sound : engine.Sound env)
    (moved : engine.next env schedule = some next) :
    ∃ deed, engine.perform env deed = some next := by
  -- Whatever a task can do with the files of the environment is a deed.
  have does : ∀ task ∈ engine.cache.tasks, ∀ (move : Move) (cache : Cache α),
      move.apply env engine.cache task = some cache → next = engine.withCache cache →
      ∃ deed, engine.perform env deed = some next := by
    intro task member move cache applied same
    refine ⟨.move env.files task.id task.revision move, ?_⟩
    rw [perform_move sound.coherent member, same]
    exact Option.map_eq_some_iff.mpr ⟨cache, applied, rfl⟩
  unfold Engine.next at moved
  split at moved
  · rename_i cache found
    obtain ⟨task, member, advanced⟩ := List.exists_of_findSome?_eq_some found
    obtain ⟨move, applied⟩ := exists_apply_of_advance advanced
    exact does task member move cache applied (Option.some.inj moved).symm
  · split at moved
    · rename_i resumed found
      obtain ⟨query, member, went⟩ := List.exists_of_findSome?_eq_some found
      refine ⟨.resume query.number, ?_⟩
      rw [Engine.perform, find?_key sound.distinct member, Option.bind_some, went, moved]
    · split_ifs at moved
      obtain ⟨task, first, released⟩ := Option.bind_eq_some_iff.mp moved
      obtain ⟨member, -⟩ := mem_inTurn.mp (List.mem_of_mem_head? first)
      obtain ⟨cache, completed, same⟩ := Option.map_eq_some_iff.mp released
      exact does task member .complete cache completed same.symm

/-- Moves are deeds, and when there were as many as are left, nothing moves. -/
theorem Sound.moves (sound : engine.Sound env) (schedule : Schedule) (count : Nat) :
    (∃ deeds, engine.performAll env deeds = some (engine.moves env schedule count)) ∧
      (engine.burden ≤ count → (engine.moves env schedule count).next env schedule = none) := by
  induction count generalizing engine with
  | zero =>
    refine ⟨⟨[], rfl⟩, fun enough => ?_⟩
    rw [Engine.moves]
    cases moved : engine.next env schedule with
    | none => rfl
    | some next =>
      -- A move would leave less than nothing to do.
      obtain ⟨deed, performed⟩ := sound.exists_perform moved
      have less := (sound.perform performed).2
      omega
  | succ count ih =>
    rw [Engine.moves]
    cases moved : engine.next env schedule with
    | none => exact ⟨⟨[], rfl⟩, fun _ => moved⟩
    | some next =>
      obtain ⟨deed, performed⟩ := sound.exists_perform moved
      obtain ⟨later, less⟩ := sound.perform performed
      obtain ⟨⟨deeds, rest⟩, still⟩ := ih later
      refine ⟨⟨deed :: deeds, ?_⟩, fun enough => still (by omega)⟩
      rw [Engine.performAll, performed]
      exact rest

/-! ## When nothing moves any more -/

/-- A task that was not told to stop takes any step it can without being asked to, but for the end
of its parser. -/
theorem advance_of_apply {cache after : Cache α} {task : Task α} {move : Move}
    (alive : task.aborted = false) (applied : move.apply env cache task = some after)
    (other : move ≠ .complete) : cache.advance env task = some after := by
  have goesOn : cache.stop task = none := by rw [stop, alive]; rfl
  unfold advance
  rw [goesOn]
  cases TaskStep.of_apply applied with
  | admitted stage admitting => rw [stage, if_pos admitting]; exact applied
  | refused stage admitting => rw [stage, admitting]; exact applied
  | read stage | unreadable stage | launched stage | rejected stage | condemned stage
  | superseded stage | installed stage | discarded stage | published stage =>
    rw [stage]
    exact applied
  | completed | lost => exact absurd rfl other
  | stopped aborted | orphaned aborted =>
    rw [alive] at aborted
    cases aborted

/-- While a parser is running, one comes to its end when its turn comes. -/
theorem exists_releaseTask {task : Task α} (running : task ∈ engine.inTurn schedule) :
    ∃ next, (engine.inTurn schedule).head?.bind (engine.releaseTask env) = some next := by
  cases turn : engine.inTurn schedule with
  | nil =>
    rw [turn] at running
    cases running
  | cons first rest =>
    have among : first ∈ engine.inTurn schedule := by
      rw [turn]
      exact List.mem_cons_self
    obtain ⟨-, -, uri, call, stage⟩ := mem_inTurn.mp among
    rw [List.head?_cons, Option.bind_some, releaseTask, complete, stage]
    exact ⟨_, rfl⟩

/-- When nothing moves any more in a calm cache and parsers end by themselves, there is nothing more
to do. -/
theorem atRest_of_next (calm : engine.cache.Calm env) (workers : 0 < env.workers)
    (automatic : schedule.automatic = true) (still : engine.next env schedule = none) :
    engine.AtRest env := by
  unfold Engine.next at still
  split at still
  · cases still
  rename_i stuck
  split at still
  · cases still
  rename_i patient
  rw [if_pos automatic] at still
  rw [List.findSome?_eq_none_iff] at stuck patient
  have ended : engine.cache.tasks = [] := by
    by_contra working
    -- Some task can take a step, by itself or when its parser comes to its end.
    obtain ⟨task, member, move, after, applied⟩ := calm.exists_move workers working env.files
    have alive := calm.coherent.unstopped calm.accepting task member
    by_cases complete : move = .complete
    · subst complete
      have running : ∃ uri call, task.stage = .parsing uri call := by
        cases TaskStep.of_apply applied with
        | completed _ stage => exact ⟨_, _, stage⟩
        | lost _ stage =>
          have awaited := calm.coherent.awaited task member alive
          rw [stage] at awaited
          cases awaited
      obtain ⟨next, released⟩ := exists_releaseTask (mem_inTurn.mpr ⟨member, alive, running⟩)
      rw [still] at released
      cases released
    · have advanced : engine.cache.advance env task = some after :=
        advance_of_apply alive applied complete
      rw [stuck task member] at advanced
      cases advanced
  intro deed
  cases deed with
  | move => exact perform_of_ended env ended ..
  | resume number =>
    rw [Engine.perform]
    cases found : engine.queries.find? fun query => query.number = number with
    | none => rfl
    | some query => exact patient query (List.mem_of_find?_eq_some found)

end

end Engine

section

variable {env : Environment α} {world : World α} {trail : List (World α × Action)}
  {engine : Engine α}

/-- However its cache came about and however many queries wait, no more deeds can be done in an
engine than it has the patience for, in whatever order they are done. -/
theorem Run.length_le_patience (run : Run env world trail) (same : engine.cache = world.cache)
    (distinct : (engine.queries.map Query.number).Nodup) {deeds : List Deed} {final : Engine α}
    (performed : engine.performAll env deeds = some final) : deeds.length ≤ engine.patience := by
  have sound : engine.Sound env := ⟨⟨world, trail, run, same.symm⟩, distinct⟩
  have bound := (sound.performAll performed).2
  have enough := engine.burden_le_patience
  omega

/-- And when it has settled, it does not move any more. -/
theorem Run.next_settle (run : Run env world trail) (same : engine.cache = world.cache)
    (distinct : (engine.queries.map Query.number).Nodup) (schedule : Schedule) :
    (engine.settle env schedule).next env schedule = none := by
  have sound : engine.Sound env := ⟨⟨world, trail, run, same.symm⟩, distinct⟩
  exact (sound.moves schedule engine.patience).2 engine.burden_le_patience

/-- In a calm cache, an idle engine that was asked for the outcome of a file, under a number that no
answer has yet, has the answer when it has settled, and the answer is an outcome. -/
theorem Engine.inquire_answers (calm : engine.cache.Calm env) (workers : 0 < env.workers)
    (idle : engine.queries = []) (fresh : engine.answers.lookup engine.answers.length = none)
    (id : Identity) : ∃ snapshot, (engine.inquire env id).2 = some (.ok snapshot) := by
  rcases ask_cases calm idle engine.answers.length id with
    ⟨snapshot, answered⟩ | ⟨asked, waits, tended, named, silent, -⟩
  · exact ⟨snapshot, by simp only [inquire, answered]⟩
  · have sound : asked.Sound env := by
      obtain ⟨_, _, run, -⟩ := tended.calm
      refine ⟨⟨_, _, run, rfl⟩, ?_⟩
      rw [named]
      exact List.nodup_singleton _
    obtain ⟨⟨deeds, performed⟩, still⟩ := sound.moves .byPath asked.patience
    have rest := atRest_of_next (tended.performAll performed).1.calm workers rfl
      (still asked.burden_le_patience)
    obtain ⟨snapshot, answered⟩ := (tended.answers_cases workers named performed).2 rest
    refine ⟨snapshot, ?_⟩
    simp only [inquire, waits]
    rw [settle, answered, silent, List.lookup_append, fresh, List.lookup_cons_self]
    rfl

end

end DiagnosticServer
