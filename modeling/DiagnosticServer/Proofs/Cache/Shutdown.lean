import DiagnosticServer.Proofs.Cache.Account

/-!
# The end of the work

The work is ended in steps: no parse is started any more, then no task gets a worker any more, then
the entries are gone through one after the other and the parses on their way are given up. Tasks and
other calls go on meanwhile, and a task may still store its outcome before its entry is come to. No
mark of a parse is put anywhere once none is started, so every mark that is there belongs to a file
that is left to be gone through; `Run.left` says so. When the call returns none is left, and from
then on nothing is ever stored: `shutdown_is_final`.
-/

namespace DiagnosticServer

variable {α : Type}

open Cache

/-! ## Once no parse is started -/

section

variable {env : Environment α} {world next : World α} {trail : List (World α × Action)}
  {action : Action} {id : Identity}

/-- Once no parse is started, tasks put no mark where there was none. -/
theorem Cache.TaskStep.inFlight {cache after : Cache α} {task : Task α} {move : Move}
    (taken : TaskStep env cache task move after) (refusing : cache.accepting = false)
    (flying : after.isInFlight id = true) : cache.isInFlight id = true := by
  obtain ⟨revision, dirty, closed, entry⟩ := isInFlight_iff.mp flying
  refine isInFlight_iff.mpr ⟨revision, dirty, closed, ?_⟩
  cases taken with
  | refused | discarded => exact get?_of_discardPending entry
  | superseded _ _ accepting =>
    rw [refusing] at accepting
    cases accepting
  | installed =>
    rw [get?_install] at entry
    split_ifs at entry
    · cases entry
    · exact entry
  | admitted | read | unreadable | launched | completed | lost | rejected | condemned | published
  | stopped | orphaned => exact entry

/-- Nor do clients. -/
theorem Cache.ClientStep.inFlight {cache after : Cache α} {calls : List Remainder}
    (taken : ClientStep calls cache after) (refusing : cache.accepting = false)
    (flying : after.isInFlight id = true) : cache.isInFlight id = true := by
  obtain ⟨revision, dirty, closed, entry⟩ := isInFlight_iff.mp flying
  cases taken with
  | idle | documents | stopAccepting | stopAdmitting =>
    exact isInFlight_iff.mpr ⟨revision, dirty, closed, entry⟩
  | scheduled _ accepting =>
    rw [refusing] at accepting
    cases accepting
  | marked _ _ mark =>
    rw [Table.get?_insert] at entry
    split_ifs at entry with own
    · rw [own]
      exact isInFlight_iff.mpr ⟨_, _, _, mark⟩
    · exact isInFlight_iff.mpr ⟨revision, dirty, closed, entry⟩
  | evicted | abandoned =>
    rw [Table.get?_erase] at entry
    split_ifs at entry
    exact isInFlight_iff.mpr ⟨revision, dirty, closed, entry⟩

/-- Once no parse is started, no step puts a mark where there was none. -/
theorem World.inFlight_of_step (taken : world.step env action = some next)
    (refusing : world.cache.accepting = false) (flying : next.cache.isInFlight id = true) :
    world.cache.isInFlight id = true := by
  rcases step_cases taken with ⟨task, -, move, -, -, taken⟩ | ⟨-, taken⟩
  · exact taken.inFlight refusing flying
  · exact taken.inFlight refusing flying

/-- Giving the parse of a file up takes its mark. -/
theorem Cache.isInFlight_abandon (cache : Cache α) (id : Identity) :
    (cache.abandon id).isInFlight id = false := by
  cases entry : cache.entries.get? id with
  | none => simp [abandon, isInFlight, entry]
  | some held => cases held <;> simp [abandon, isInFlight, entry]

/-! ## What is left to be done -/

/-- What a step may leave to be done that was not left before. -/
inductive World.Leaves (env : Environment α) (world : World α) :
    Action → World α → Remainder → Prop where
  /-- A text was recorded. -/
  | revise (id : Identity) (document : Document) (next : World α) (unchanged : Bool) :
      Leaves env world (.update id document) next (.revise id unchanged)
  /-- The entry had no use for the text. -/
  | request (id : Identity) (unchanged : Bool) (next : World α) :
      Leaves env world (.proceed (.revise id unchanged)) next (.request id)
  /-- A text was forgotten, and its outcome is to be dropped. -/
  | evict (id : Identity) (evicting : env.options.evictOnClose = true) (next : World α) :
      Leaves env world (.close id) next (.evict id)
  /-- No parse is started any more. -/
  | stopAdmitting (next : World α) : Leaves env world .shutdown next .stopAdmitting
  /-- No task gets a worker any more. -/
  | abandon (next : World α) (same : next.cache = world.cache.stopAdmitting) :
      Leaves env world (.proceed .stopAdmitting) next (.abandon world.cache.entries.keys)
  /-- A file was gone through. -/
  | sweep {left : List Identity} {id : Identity} (next : World α)
      (begun : .abandon left ∈ world.calls) (same : next.cache = world.cache.abandon id) :
      Leaves env world (.sweep left id) next (.abandon (left.erase id))

/-- What is left to be done after a step was left before, or the step leaves it. -/
theorem World.leaves_of_step (taken : world.step env action = some next) {call : Remainder}
    (left : call ∈ next.calls) : call ∈ world.calls ∨ Leaves env world action next call := by
  cases action with
  | edit | request | look =>
    cases taken
    exact .inl left
  | update id document =>
    cases taken
    rcases List.mem_cons.mp left with rfl | left
    · exact .inr (.revise ..)
    · exact .inl left
  | close id =>
    simp only [step] at taken
    split_ifs at taken with evicting <;> cases taken
    · rcases List.mem_cons.mp left with rfl | left
      · exact .inr (.evict _ evicting _)
      · exact .inl left
    · exact .inl left
  | shutdown =>
    simp only [step] at taken
    split_ifs at taken <;> cases taken
    · rcases List.mem_cons.mp left with rfl | left
      · exact .inr (.stopAdmitting _)
      · exact .inl left
    · exact .inl left
  | proceed current =>
    simp only [step] at taken
    split_ifs at taken with begun
    cases current with
    | revise id unchanged =>
      simp only [proceed] at taken
      split at taken <;> cases taken
      · exact .inl (List.mem_of_mem_erase left)
      · rcases List.mem_cons.mp left with rfl | left
        · exact .inr (.request ..)
        · exact .inl (List.mem_of_mem_erase left)
    | request | evict =>
      cases taken
      exact .inl (List.mem_of_mem_erase left)
    | stopAdmitting =>
      cases taken
      rcases List.mem_cons.mp left with rfl | left
      · exact .inr (.abandon _ rfl)
      · exact .inl (List.mem_of_mem_erase left)
    | abandon files =>
      cases files <;> cases taken
      exact .inl (List.mem_of_mem_erase left)
  | sweep files id =>
    simp only [step] at taken
    split_ifs at taken with begun
    cases taken
    rcases List.mem_cons.mp left with rfl | left
    · exact .inr (.sweep _ begun.1 rfl)
    · exact .inl (List.mem_of_mem_erase left)
  | move revision move =>
    rcases step_cases taken with ⟨task, -, _, -, same, -⟩ | ⟨other, -⟩
    · rw [same] at left
      exact .inl left
    · exact absurd rfl (other revision move)

/-- An outcome is to be dropped only if that is wanted when documents are closed. -/
theorem Run.evicting (run : Run env world trail) (begun : .evict id ∈ world.calls) :
    env.options.evictOnClose = true := by
  induction run with
  | start files => cases begun
  | step run action taken ih =>
    rcases World.leaves_of_step taken begun with before | left
    · exact ih before
    · cases left with
      | evict _ evicting => exact evicting

/-- While the end of the work goes through the entries, every parse that is on its way is of a file
that is left. -/
theorem Run.left (run : Run env world trail) {files : List Identity}
    (begun : .abandon files ∈ world.calls) (flying : world.cache.isInFlight id = true) :
    id ∈ files := by
  induction run generalizing files with
  | start => cases begun
  | @step world next trail run action taken ih =>
    rcases World.leaves_of_step taken begun with before | left
    · -- No parse is started any more, so this one was on its way before.
      have refusing := run.coherent.ending _ before rfl
      exact ih before (World.inFlight_of_step taken refusing flying)
    · cases left with
      | abandon _ same =>
        rw [same] at flying
        obtain ⟨revision, dirty, closed, entry⟩ := isInFlight_iff.mp flying
        exact Table.mem_keys_of_get? entry
      | sweep _ before same =>
        have refusing := run.coherent.ending _ before rfl
        have member := ih before (World.inFlight_of_step taken refusing flying)
        refine (List.mem_erase_of_ne ?_).mpr member
        rintro rfl
        rw [same, isInFlight_abandon] at flying
        cases flying

end

/-! ## After the end -/

/-- The work is over: no parse can be started, and none is on its way. -/
structure Cache.Ended (cache : Cache α) : Prop where
  /-- No parse can be started. -/
  refusing : cache.accepting = false
  /-- None is on its way. -/
  idle : ∀ id, cache.isInFlight id = false

namespace Cache.Ended

variable {env : Environment α} {cache next : Cache α} {task : Task α} {id : Identity}

/-- There is no mark of a parse. -/
theorem free (ended : cache.Ended) (id : Identity) (revision : Nat) (dirty closed : Bool) :
    cache.entries.get? id ≠ some (.pending revision dirty closed) := by
  intro entry
  have flying := isInFlight_iff.mpr ⟨revision, dirty, closed, entry⟩
  rw [ended.idle] at flying
  cases flying

/-- Whatever is held is an outcome, and if there is none nothing is held. -/
theorem get?_eq_none (ended : cache.Ended) (none : cache.cached? id = none) :
    cache.entries.get? id = Option.none := by
  cases entry : cache.entries.get? id with
  | none => rfl
  | some held =>
    cases held with
    | pending revision dirty closed => exact absurd entry (ended.free _ _ _ _)
    | ready revision outcome =>
      have held : cache.cached? id = some ⟨revision, outcome⟩ := cached?_eq_some.mpr entry
      rw [none] at held
      cases held

/-- A parse that is asked for is refused. -/
theorem requestParse_eq (ended : cache.Ended) (id : Identity) :
    cache.requestParse id = (cache, .error .schedulerShutdown) := by
  unfold requestParse
  split
  · exact absurd ‹_› (ended.free _ _ _ _)
  · rw [start, ended.refusing]
    rfl

/-- A file for which nothing is held is not looked up any more. -/
theorem lookup_of_none (ended : cache.Ended) (entry : cache.entries.get? id = none) :
    cache.lookup id = (cache, .error .schedulerShutdown) :=
  lookup_of_refusing_none ended.refusing entry

/-- Telling an entry of a text changes nothing. -/
theorem reviseEntry_eq (ended : cache.Ended) (id : Identity) (unchanged : Bool) :
    (cache.reviseEntry id unchanged).1 = cache := by
  unfold reviseEntry
  split
  · exact absurd ‹_› (ended.free _ _ _ _)
  · rfl
  · rfl

/-- Recording a text leaves the work over. -/
theorem recordDocument (ended : cache.Ended) (id : Identity) (document : Document) :
    (cache.recordDocument id document).1.Ended :=
  ⟨ended.refusing, ended.idle⟩

/-- The text of a file for which nothing is held is recorded and not parsed. -/
theorem updateDocument_of_none (ended : cache.Ended) (entry : cache.entries.get? id = none)
    (document : Document) :
    cache.updateDocument id document =
      ((cache.recordDocument id document).1, .error .schedulerShutdown) := by
  have revised : (cache.recordDocument id document).1.reviseEntry id
      (cache.recordDocument id document).2 = ((cache.recordDocument id document).1, none) := by
    have same : (cache.recordDocument id document).1.entries.get? id = none := entry
    simp only [reviseEntry, same]
  unfold updateDocument
  dsimp only
  rw [revised]
  exact (ended.recordDocument id document).requestParse_eq id

/-- Closing a document drops its outcome and no other. -/
theorem get?_evict (ended : cache.Ended) (file id : Identity) :
    (cache.evict file).entries.get? id =
      if id = file then none else cache.entries.get? id := by
  unfold evict
  split
  · exact absurd ‹_› (ended.free _ _ _ _)
  · exact Table.get?_erase ..
  · rename_i nothing
    split_ifs with own
    · rw [own, nothing]
    · rfl

/-- There is nothing left to give up. -/
theorem abandon_eq (ended : cache.Ended) (id : Identity) : cache.abandon id = cache := by
  unfold abandon
  split
  · exact absurd ‹_› (ended.free _ _ _ _)
  · rfl

/-- Ending the work a second time changes nothing. -/
theorem shutdown_eq (ended : cache.Ended) : cache.shutdown = cache := by
  rw [shutdown, ended.refusing]
  rfl

/-- No task finds its own mark, or the outcome of an older parse. -/
theorem not_replaceable (ended : cache.Ended) (coherent : cache.Coherent) (latest : cache.Latest)
    (member : task ∈ cache.tasks) :
    ¬ ((∃ dirty, cache.entries.get? task.id = some (.pending task.revision dirty false) ∧
        (dirty = true → cache.accepting = false)) ∨
      ∃ older held, cache.entries.get? task.id = some (.ready older held) ∧
        older < task.revision) := by
  rintro (⟨dirty, entry, -⟩ | ⟨older, held, entry, below⟩)
  · exact ended.free _ _ _ _ entry
  · -- No parse of the file is younger than the one whose outcome is held.
    have youngest := latest _ _ entry _ (coherent.registered task member)
    exact Nat.not_lt.mpr youngest below

/-- A task whose parser has ended comes to its own end and stores nothing. -/
theorem store_eq (env : Environment α) (ended : cache.Ended) (coherent : cache.Coherent)
    (latest : cache.Latest) (member : task ∈ cache.tasks) (stored : cache.store task = some next) :
    next = cache.retire task := by
  have listed : TaskStep env cache task .store next := .of_store stored
  cases listed with
  | rejected => rfl
  | condemned _ entry | superseded _ entry => exact absurd entry (ended.free _ _ _ _)
  | installed _ entry => exact absurd entry (ended.not_replaceable coherent latest member)

/-- No step of a task changes an entry. -/
theorem taskStep_entries (ended : cache.Ended) (coherent : cache.Coherent) (latest : cache.Latest)
    (member : task ∈ cache.tasks) {move : Move} (taken : TaskStep env cache task move next) :
    next.entries = cache.entries := by
  cases taken with
  | refused | discarded =>
    rw [discardPending_of_no_mark fun dirty closed => ended.free _ _ dirty closed]
    rfl
  | superseded _ entry => exact absurd entry (ended.free _ _ _ _)
  | installed _ entry => exact absurd entry (ended.not_replaceable coherent latest member)
  | admitted | read | unreadable | launched | completed | lost | rejected | condemned | published
  | stopped | orphaned => rfl

end Cache.Ended

section

variable {env : Environment α} {world next : World α} {trail : List (World α × Action)}
  {action : Action} {id : Identity}

/-- When the work is over, the only step that changes an entry is the last one of a close, which
drops an outcome. -/
theorem World.entries_of_step (ended : world.cache.Ended) (run : Run env world trail)
    (taken : world.step env action = some next) (id : Identity) :
    next.cache.entries.get? id = world.cache.entries.get? id ∨
      action = .proceed (.evict id) ∧ .evict id ∈ world.calls ∧
        next.cache.entries.get? id = none := by
  cases action with
  | edit | update =>
    cases taken
    exact .inl rfl
  | close =>
    simp only [step] at taken
    split_ifs at taken <;> cases taken <;> exact .inl rfl
  | request file =>
    cases taken
    left
    rw [withCache, ended.requestParse_eq file]
  | look file =>
    cases taken
    left
    cases entry : world.cache.entries.get? file with
    | none => rw [withCache, ended.lookup_of_none entry]
    | some held => cases held <;> simp only [withCache, lookup, entry]
  | shutdown =>
    simp only [step, ended.refusing] at taken
    cases taken
    exact .inl rfl
  | proceed call =>
    simp only [step] at taken
    split_ifs at taken with begun
    cases call with
    | revise file unchanged =>
      have same := ended.reviseEntry_eq file unchanged
      simp only [proceed] at taken
      split at taken <;> cases taken <;> rename_i revised <;> rw [revised] at same <;>
        exact .inl (congrArg (fun cache => cache.entries.get? id) same)
    | request file =>
      cases taken
      left
      rw [finish, ended.requestParse_eq file]
    | evict file =>
      cases taken
      have evicted := ended.get?_evict file id
      split_ifs at evicted with own
      · subst own
        exact .inr ⟨rfl, begun, evicted⟩
      · exact .inl evicted
    | stopAdmitting =>
      cases taken
      exact .inl rfl
    | abandon files =>
      cases files <;> cases taken
      exact .inl rfl
  | sweep files file =>
    simp only [step] at taken
    split_ifs at taken
    cases taken
    left
    change (world.cache.abandon file).entries.get? id = _
    rw [ended.abandon_eq file]
  | move revision move =>
    rcases step_cases taken with ⟨task, member, _, -, -, taken⟩ | ⟨other, -⟩
    · left
      rw [ended.taskStep_entries run.coherent.cache run.latest member taken]
    · exact absurd rfl (other revision move)

/-- When the work is over, it stays so. -/
theorem Cache.Ended.step (ended : world.cache.Ended) (taken : world.step env action = some next) :
    next.cache.Ended := by
  refine ⟨Bool.eq_false_iff.mpr fun accepting => ?_,
    fun id => Bool.eq_false_iff.mpr fun flying => ?_⟩
  · have before := World.accepting_of_step taken accepting
    rw [ended.refusing] at before
    cases before
  · have before := World.inFlight_of_step taken ended.refusing flying
    rw [ended.idle] at before
    cases before

/-- From the moment on at which the call that ends the work returns, the work is over, and what is
held was held at that moment. -/
theorem Run.ended (run : Run env world trail) {after before : List (World α × Action)}
    {returned : World α} (split : trail = after ++ (returned, .proceed (.abandon [])) :: before) :
    world.cache.Ended ∧ (∀ moment ∈ after, moment.1.cache.Ended) ∧
      ∀ id held, world.cache.entries.get? id = some held →
        returned.cache.entries.get? id = some held := by
  -- By induction on what has happened since.
  induction after generalizing world trail with
  | nil =>
    subst split
    cases run with
    | step run _ taken =>
      simp only [World.step] at taken
      split_ifs at taken with begun
      cases taken
      have refusing := run.coherent.ending _ begun rfl
      refine ⟨⟨refusing, fun id => ?_⟩, fun moment later => ?_, fun _ _ entry => entry⟩
      · refine Bool.eq_false_iff.mpr fun flying => ?_
        exact absurd (run.left begun flying) List.not_mem_nil
      · cases later
  | cons moment after ih =>
    subst split
    cases run with
    | step run action taken =>
      obtain ⟨ended, since, kept⟩ := ih run rfl
      refine ⟨ended.step taken, ?_, fun id held entry => ?_⟩
      · rintro _ (_ | ⟨_, past⟩)
        · exact ended
        · exact since _ past
      · rcases World.entries_of_step ended run taken id with same | ⟨-, -, gone⟩
        · rw [same] at entry
          exact kept id held entry
        · rw [gone] at entry
          cases entry

/-- Whatever was announced was stored before the call that ends the work returned. -/
theorem Run.installs_before (run : Run env world trail) {after before : List (World α × Action)}
    {returned : World α} (split : trail = after ++ (returned, .proceed (.abandon [])) :: before)
    {revision : Nat} {uri : Option Uri} {outcome : Outcome α} {sent : List Notification}
    (event : .announced id revision uri outcome sent ∈ world.cache.history) :
    ∃ moment ∈ before, Installs env moment id revision outcome := by
  obtain ⟨⟨moment, passed, installs⟩, -⟩ := run.accounted.told id revision uri outcome sent event
  obtain ⟨-, since, -⟩ := run.ended split
  have whole := passed
  rw [split] at passed
  rcases List.mem_append.mp passed with late | passed
  · -- The step would have stored an outcome where every entry stays as it is.
    obtain ⟨earlier, past, -⟩ := run.past whole
    have fresh := past.accounted.not_ready_of_installs past.forward installs
    obtain ⟨named, next, taken, entry⟩ := installs
    rcases World.entries_of_step (since moment late) past taken id with same | ⟨other, -⟩
    · rw [same] at entry
      exact absurd entry fresh
    · rw [named] at other
      cases other
  · rcases List.mem_cons.mp passed with rfl | early
    · cases installs.1
    · exact ⟨moment, early, installs⟩

end

/-! ## Queries -/

namespace Engine

variable {engine : Engine α} {id : Identity}

/-- A query for a file of which an outcome is held is answered with it. -/
theorem ask_of_cached (number : Nat) {snapshot : Snapshot α}
    (held : engine.cache.cached? id = some snapshot) :
    engine.ask number id = (engine, some (.ok snapshot)) := by
  have entry := cached?_eq_some.mp held
  simp only [ask, consult, lookup, entry]
  rfl

/-- When the work is over, a query for a file for which nothing is held is refused. -/
theorem ask_of_ended (number : Nat) (ended : engine.cache.Ended)
    (none : engine.cache.cached? id = none) :
    engine.ask number id = (engine, some (.error .schedulerShutdown)) := by
  have looked := ended.lookup_of_none (ended.get?_eq_none none)
  simp only [ask, consult, looked]
  rfl

end Engine

section

variable {env : Environment α} {world : World α} {trail : List (World α × Action)}

/-- From the moment on at which the call that ended the work returned, whatever clients and tasks
have done since: no parse is on its way; every outcome that is held was held at that moment; no step
changes an entry but the last one of a close that drops the outcome of its document; a task whose
parser has ended comes to its own end and stores nothing; whatever was announced had been stored
before that moment; whoever asks for a parse of a file for which nothing is held, looks it up or
records its text is refused, and no entry changes; a query for a file of which an outcome is held is
answered with it; and ending the work again changes nothing. -/
theorem shutdown_is_final (run : Run env world trail) {after before : List (World α × Action)}
    {returned : World α} (split : trail = after ++ (returned, .proceed (.abandon [])) :: before) :
    (∀ id, world.cache.isInFlight id = false) ∧
    (∀ id held, world.cache.entries.get? id = some held →
      returned.cache.entries.get? id = some held ∧
        ∃ snapshot : Snapshot α, held = .ready snapshot.revision snapshot.outcome) ∧
    (∀ action next id, world.step env action = some next →
      next.cache.entries.get? id ≠ world.cache.entries.get? id →
      action = .proceed (.evict id) ∧ env.options.evictOnClose = true ∧
        next.cache.entries.get? id = none) ∧
    (∀ task ∈ world.cache.tasks, ∀ next, world.cache.store task = some next →
      next = world.cache.retire task) ∧
    (∀ id revision uri outcome sent,
      .announced id revision uri outcome sent ∈ world.cache.history →
      ∃ moment ∈ before, Installs env moment id revision outcome) ∧
    (∀ id, world.cache.entries.get? id = none →
      world.cache.requestParse id = (world.cache, .error .schedulerShutdown) ∧
      (∀ document, (world.cache.updateDocument id document).2 = .error .schedulerShutdown ∧
        (world.cache.updateDocument id document).1.entries = world.cache.entries) ∧
      ∀ engine : Engine α, engine.cache = world.cache → ∀ number,
        engine.ask number id = (engine, some (.error .schedulerShutdown))) ∧
    (∀ id snapshot, world.cache.cached? id = some snapshot →
      ∀ engine : Engine α, engine.cache = world.cache → ∀ number,
        engine.ask number id = (engine, some (.ok snapshot))) ∧
    world.cache.shutdown = world.cache ∧ world.step env .shutdown = some world := by
  obtain ⟨ended, -, kept⟩ := run.ended split
  refine ⟨ended.idle, fun id held entry => ⟨kept id held entry, ?_⟩,
    fun action next id taken changed => ?_,
    fun task member next stored => ended.store_eq env run.coherent.cache run.latest member stored,
    fun id revision uri outcome sent event => run.installs_before split event,
    fun id entry => ⟨ended.requestParse_eq id, fun document => ?_, fun engine same number => ?_⟩,
    fun id snapshot held engine same number => ?_, ended.shutdown_eq, ?_⟩
  · cases held with
    | pending => exact absurd entry (ended.free _ _ _ _)
    | ready revision outcome => exact ⟨⟨revision, outcome⟩, rfl⟩
  · rcases World.entries_of_step ended run taken id with same | ⟨named, begun, gone⟩
    · exact absurd same changed
    · exact ⟨named, run.evicting begun, gone⟩
  · rw [ended.updateDocument_of_none entry document]
    exact ⟨rfl, rfl⟩
  · rw [← same] at ended entry
    refine Engine.ask_of_ended number ended ?_
    rw [cached?, entry]
  · rw [← same] at held
    exact Engine.ask_of_cached number held
  · rw [World.step, ended.refusing]
    rfl

/-- The work is ended while one outcome has still to be announced and another one has still to be
stored: the first one is announced afterwards and stays, and the second one is lost. -/
theorem shutdown_is_final_amid_tasks : ∃ world trail returned after before,
    Run (Trial.env 1) world trail ∧
    trail = after ++ (returned, .proceed (.abandon [])) :: before ∧
    returned.cache.announced = [] ∧ world.cache.announced = [1] ∧
    after.map Prod.snd = [.move 1 .publish, .move 2 .store] ∧
    (∃ moment ∈ before, Installs (Trial.env 1) moment Trial.file 1 (.success () [])) ∧
    world.cache.cached? Trial.file = some ⟨1, .success () []⟩ ∧
    world.cache.entries.get? Trial.otherFile = none ∧
    world.cache.requestParse Trial.otherFile = (world.cache, .error .schedulerShutdown) := by
  obtain ⟨world, trail, returned, after, before, run, split, silent, told, since, event, held,
      gone⟩ : ∃ world trail returned after before, Run (Trial.env 1) world trail ∧
      trail = after ++ (returned, .proceed (.abandon [])) :: before ∧
      returned.cache.announced = [] ∧ world.cache.announced = [1] ∧
      after.map Prod.snd = [.move 1 .publish, .move 2 .store] ∧
      (∃ uri sent, .announced Trial.file 1 uri (.success () []) sent ∈ world.cache.history) ∧
      world.cache.cached? Trial.file = some ⟨1, .success () []⟩ ∧
      world.cache.entries.get? Trial.otherFile = none :=
    ⟨_, _, _, [_, _], _, (Trial.start 1).follow
      [.update Trial.file (Trial.document "sound"), .proceed (.revise Trial.file false),
        .proceed (.request Trial.file), .move 1 .assignWorker, .move 1 .readDocument,
        .move 1 .launch, .move 1 .complete, .move 1 .store,
        .update Trial.otherFile (Trial.document "sound"), .proceed (.revise Trial.otherFile false),
        .proceed (.request Trial.otherFile), .move 2 .assignWorker, .move 2 .readDocument,
        .move 2 .launch, .move 2 .complete, .shutdown, .proceed .stopAdmitting,
        .sweep [Trial.otherFile, Trial.file] Trial.file,
        .sweep [Trial.otherFile] Trial.otherFile, .proceed (.abandon []), .move 2 .store,
        .move 1 .publish] rfl, rfl, rfl, rfl, rfl,
      ⟨_, _, List.mem_append_right _ List.mem_cons_self⟩, rfl, rfl⟩
  obtain ⟨-, -, -, -, stored, refused, -⟩ := shutdown_is_final run split
  obtain ⟨uri, sent, event⟩ := event
  exact ⟨world, trail, returned, after, before, run, split, silent, told, since,
    stored _ _ _ _ _ event, held, gone, (refused _ gone).1⟩

end

end DiagnosticServer
