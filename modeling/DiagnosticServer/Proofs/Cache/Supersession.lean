import DiagnosticServer.Proofs.Cache.Freshness
import DiagnosticServer.Proofs.Cache.Storage

/-!
# Outcomes of texts that have changed since

An update with a changed text marks the parse on its way as dirty. When its task comes to store the
outcome it finds the mark and starts another parse instead, so nobody gets to see the outcome of the
earlier text. Once the work is being ended no parse can be started, though, and a task that finds
itself in that place stores its outcome all the same. That can happen between the moment at which
parses are no longer started and the one at which the end of the work comes to the entry.

`outdated_outcome_stored_iff` shows that there is no other way in which the outcome of a dirty parse
is stored, answered to a query or announced, unless a close has taken the mark. On the run of
`outdated_outcome_slips_in` it is.
-/

namespace DiagnosticServer

variable {α : Type}

open Cache

/-- The revision of the parse of a file that is on its way. -/
def Cache.underway? (cache : Cache α) (id : Identity) : Option Nat :=
  match cache.entries.get? id with
  | some (.pending revision _ _) => some revision
  | _ => none

/-- Whether a step marks the parse of that file and revision as dirty: an update with a changed text
tells it so. -/
def Outdates (id : Identity) (revision : Nat) (world : World α) : Action → Prop
  | .proceed (.revise file unchanged) =>
    file = id ∧ unchanged = false ∧ world.cache.underway? id = some revision
  | _ => False

/-- Whether a step takes that mark: a close tells the parse that its document is not open any more.
-/
def Clears (id : Identity) (revision : Nat) (world : World α) : Action → Prop
  | .proceed (.evict file) => file = id ∧ world.cache.underway? id = some revision
  | _ => False

instance (id : Identity) (revision : Nat) (world : World α) :
    DecidablePred (Outdates id revision world)
  | .proceed (.revise file unchanged) => inferInstanceAs
    (Decidable (file = id ∧ unchanged = false ∧ world.cache.underway? id = some revision))
  | .proceed (.evict _) | .proceed (.request _) | .proceed .stopAdmitting
  | .proceed (.abandon _) | .edit _ | .update _ _ | .close _ | .request _ | .look _ | .shutdown
  | .sweep _ _ | .move _ _ => isFalse not_false

instance (id : Identity) (revision : Nat) (world : World α) :
    DecidablePred (Clears id revision world)
  | .proceed (.evict file) =>
    inferInstanceAs (Decidable (file = id ∧ world.cache.underway? id = some revision))
  | .proceed (.revise _ _) | .proceed (.request _) | .proceed .stopAdmitting
  | .proceed (.abandon _) | .edit _ | .update _ _ | .close _ | .request _ | .look _ | .shutdown
  | .sweep _ _ | .move _ _ => isFalse not_false

/-- Whether at that moment a task stores its outcome although its parse is dirty: no parse can be
started any more, and the end of the work has not come to the entry. -/
def SlipsIn (id : Identity) (revision : Nat) (moment : World α × Action) : Prop :=
  moment.2 = .move revision .store ∧ moment.1.cache.accepting = false ∧
    moment.1.cache.entries.get? id = some (.pending revision true false)

/-- Whether a query is answered with an outcome now, at once or after it had to wait. -/
def Engine.Gives (engine : Engine α) (snapshot : Snapshot α) : Prop :=
  (∃ number id, (engine.ask number id).2 = some (.ok snapshot)) ∨
    ∃ query next, engine.resume query = some next ∧
      next.answers = engine.answers ++ [(query.number, .ok snapshot)]

/-- A query is answered with no outcome but one that is held. -/
theorem Engine.Gives.held {engine : Engine α} {snapshot : Snapshot α}
    (gives : engine.Gives snapshot) : ∃ id, engine.cache.cached? id = some snapshot := by
  rcases gives with ⟨number, id, asked⟩ | ⟨query, next, resumed, answered⟩
  · exact ⟨id, cached_of_ask asked⟩
  · exact ⟨query.handle.id, cached_of_resume resumed answered⟩

section

variable {env : Environment α} {world next : World α} {action : Action} {id : Identity}
  {revision : Nat} {moment : World α × Action} {after before trail : List (World α × Action)}

/-- While parses may be started they could be so before. -/
theorem Run.accepting_of_mem (run : Run env world trail) (passed : moment ∈ trail)
    (accepting : world.cache.accepting = true) : moment.1.cache.accepting = true := by
  induction run with
  | start files => cases passed
  | step run action taken ih =>
    have earlier := World.accepting_of_step taken accepting
    rcases List.mem_cons.mp passed with rfl | passed
    · exact earlier
    · exact ih passed earlier

/-- Every world of a run, the last one too, was reached by a run whose steps are among those of the
whole. -/
theorem Run.to_past (run : Run env world trail) {past : World α}
    (found : past ∈ world :: trail.map Prod.fst) : ∃ steps, Run env past steps ∧ steps ⊆ trail := by
  rcases List.mem_cons.mp found with rfl | found
  · exact ⟨trail, run, List.Subset.refl _⟩
  · obtain ⟨moment, passed, rfl⟩ := List.mem_map.mp found
    exact run.past passed

/-! ## The marks of parses -/

/-- A parse is on its way where the entry is its mark. -/
theorem Cache.underway?_eq_some {cache : Cache α} :
    cache.underway? id = some revision ↔
      ∃ dirty closed, cache.entries.get? id = some (.pending revision dirty closed) := by
  unfold underway?
  constructor
  · intro found
    split at found
    · rename_i current dirty closed entry
      cases found
      exact ⟨dirty, closed, entry⟩
    · cases found
  · rintro ⟨dirty, closed, entry⟩
    rw [entry]

/-- Starting a parse leaves the marks that are there, or puts one of a revision of its own. -/
theorem Cache.mark_of_start {cache : Cache α} {file : Identity} {dirty closed : Bool}
    (mark : (cache.start file).1.entries.get? id = some (.pending revision dirty closed)) :
    cache.entries.get? id = some (.pending revision dirty closed) ∨
      revision = cache.lastRevision + 1 := by
  unfold start at mark
  split_ifs at mark
  · rw [get?_schedule] at mark
    split_ifs at mark
    · cases mark
      exact .inr rfl
    · exact .inl mark
  · exact .inl mark

/-- So does asking for one. -/
theorem Cache.mark_of_requestParse {cache : Cache α} {file : Identity} {dirty closed : Bool}
    (mark : (cache.requestParse file).1.entries.get? id = some (.pending revision dirty closed)) :
    cache.entries.get? id = some (.pending revision dirty closed) ∨
      revision = cache.lastRevision + 1 := by
  unfold requestParse at mark
  split at mark
  · exact .inl mark
  · exact mark_of_start mark

/-- So does looking a file up. -/
theorem Cache.mark_of_lookup {cache : Cache α} {file : Identity} {dirty closed : Bool}
    (mark : (cache.lookup file).1.entries.get? id = some (.pending revision dirty closed)) :
    cache.entries.get? id = some (.pending revision dirty closed) ∨
      revision = cache.lastRevision + 1 := by
  unfold lookup at mark
  split at mark
  · exact .inl mark
  · exact .inl mark
  · exact mark_of_start mark

/-- Telling an entry of a text leaves the marks that are there, but for one that is dirty from now
on if the text has changed, and not closed. -/
theorem Cache.mark_of_reviseEntry {cache : Cache α} {file : Identity}
    {unchanged dirty closed : Bool}
    (mark : (cache.reviseEntry file unchanged).1.entries.get? id =
      some (.pending revision dirty closed)) :
    cache.entries.get? id = some (.pending revision dirty closed) ∨
      ∃ dirtyBefore closedBefore,
        cache.entries.get? id = some (.pending revision dirtyBefore closedBefore) ∧
        dirty = (dirtyBefore || !unchanged) ∧ closed = false := by
  unfold reviseEntry at mark
  split at mark
  · rename_i entry
    rw [Table.get?_insert] at mark
    split_ifs at mark with own
    · cases mark
      rw [own]
      exact .inr ⟨_, _, entry, rfl, rfl⟩
    · exact .inl mark
  · exact .inl mark
  · exact .inl mark

/-- Closing a document leaves the marks of the parses of other files. -/
theorem Cache.mark_of_evict {cache : Cache α} {file : Identity} {dirty closed : Bool}
    (mark : (cache.evict file).entries.get? id = some (.pending revision dirty closed)) :
    cache.entries.get? id = some (.pending revision dirty closed) ∨
      file = id ∧ cache.underway? id = some revision := by
  unfold evict at mark
  split at mark
  · rename_i entry
    rw [Table.get?_insert] at mark
    split_ifs at mark with own
    · cases mark
      rw [own]
      exact .inr ⟨rfl, underway?_eq_some.mpr ⟨_, _, entry⟩⟩
    · exact .inl mark
  · rw [Table.get?_erase] at mark
    split_ifs at mark
    exact .inl mark
  · exact .inl mark

/-- Giving a parse up leaves the marks of the others. -/
theorem Cache.mark_of_abandon {cache : Cache α} {file : Identity} {dirty closed : Bool}
    (mark : (cache.abandon file).entries.get? id = some (.pending revision dirty closed)) :
    cache.entries.get? id = some (.pending revision dirty closed) := by
  unfold abandon at mark
  split at mark
  · rw [Table.get?_erase] at mark
    split_ifs at mark
    exact mark
  · exact mark

/-- The mark that is there after a step was there before, or is that of a parse which has just been
started, or has been told of a text, or of a close. -/
theorem World.mark_of_step (taken : world.step env action = some next) {dirty closed : Bool}
    (mark : next.cache.entries.get? id = some (.pending revision dirty closed)) :
    world.cache.entries.get? id = some (.pending revision dirty closed) ∨
      revision = world.cache.lastRevision + 1 ∨
      (∃ unchanged dirtyBefore closedBefore,
        world.cache.entries.get? id = some (.pending revision dirtyBefore closedBefore) ∧
        dirty = (dirtyBefore || !unchanged) ∧ closed = false) ∨
      Clears id revision world action := by
  cases action with
  | edit | update =>
    cases taken
    exact .inl mark
  | close =>
    simp only [step] at taken
    split_ifs at taken <;> cases taken <;> exact .inl mark
  | request file =>
    cases taken
    exact (mark_of_requestParse mark).imp_right .inl
  | look file =>
    cases taken
    exact (mark_of_lookup mark).imp_right .inl
  | shutdown =>
    simp only [step] at taken
    split_ifs at taken <;> cases taken <;> exact .inl mark
  | proceed call =>
    simp only [step] at taken
    split_ifs at taken
    cases call with
    | revise file unchanged =>
      have revised : (world.cache.reviseEntry file unchanged).1.entries.get? id =
          some (.pending revision dirty closed) := by
        simp only [proceed] at taken
        split at taken <;> rename_i told <;> cases taken <;> rw [told] <;> exact mark
      rcases mark_of_reviseEntry revised with same | told
      · exact .inl same
      · exact .inr (.inr (.inl ⟨unchanged, told⟩))
    | request file =>
      cases taken
      exact (mark_of_requestParse mark).imp_right .inl
    | evict file =>
      cases taken
      rcases mark_of_evict mark with same | cleared
      · exact .inl same
      · exact .inr (.inr (.inr cleared))
    | stopAdmitting =>
      cases taken
      exact .inl mark
    | abandon files =>
      cases files <;> cases taken
      exact .inl mark
  | sweep files file =>
    simp only [step] at taken
    split_ifs at taken
    cases taken
    exact .inl (mark_of_abandon mark)
  | move number move =>
    rcases step_cases taken with ⟨task, -, _, -, -, taken⟩ | ⟨client, -⟩
    · rcases taken.entry_cases id with same | ⟨-, ⟨gone, -⟩ | ⟨started, -⟩ | ⟨_, _, _, stored, -⟩⟩
      · exact .inl (same ▸ mark)
      · cases gone.symm.trans mark
      · cases started.symm.trans mark
        exact .inr (.inl rfl)
      · cases stored.symm.trans mark
    · exact absurd rfl (client number move)

/-! ## Dirty parses -/

/-- A parse that is marked as dirty is on its way. -/
theorem Outdates.spec (outdates : Outdates id revision world action) :
    action = .proceed (.revise id false) ∧
      ∃ dirty closed, world.cache.entries.get? id = some (.pending revision dirty closed) := by
  unfold Outdates at outdates
  split at outdates
  · obtain ⟨rfl, rfl, underway⟩ := outdates
    exact ⟨rfl, underway?_eq_some.mp underway⟩
  · exact outdates.elim

/-- So it has a task that has still to settle its entry. -/
theorem Outdates.unsettled (outdates : Outdates id revision world action)
    (run : Run env world before) :
    ∃ task ∈ world.cache.tasks, task.id = id ∧ task.revision = revision ∧
      task.stage.isUnsettled = true := by
  obtain ⟨-, dirty, closed, entry⟩ := outdates.spec
  obtain ⟨task, member, file, same, unsettled, -⟩ :=
    run.coherent.cache.marked id revision dirty closed entry
  exact ⟨task, member, file, same, unsettled⟩

/-- From then on it is dirty and not closed. -/
theorem Outdates.mark (outdates : Outdates id revision world action)
    (taken : world.step env action = some next) :
    next.cache.entries.get? id = some (.pending revision true false) := by
  obtain ⟨rfl, dirty, closed, entry⟩ := outdates.spec
  simp only [World.step] at taken
  split_ifs at taken
  rw [World.proceed_revise_some (by simp only [reviseEntry, entry]; rfl)] at taken
  cases taken
  rw [World.finish, Table.get?_insert, if_pos rfl, Bool.not_false, Bool.or_true]

/-- A parse that is marked as dirty is known by its file and revision from then on. -/
theorem Run.started_of_outdates (run : Run env world (after ++ moment :: before))
    (outdates : Outdates id revision moment.1 moment.2) :
    (id, revision) ∈ world.cache.started := by
  obtain ⟨task, member, rfl, rfl, -⟩ := outdates.unsettled run.split.1
  have registered := run.split.1.coherent.cache.registered task member
  have passed : moment ∈ after ++ moment :: before :=
    List.mem_append_right _ List.mem_cons_self
  exact (run.started moment passed).subset registered

/-- As long as no close has taken the mark, the parse is dirty and not closed while it is on its
way. -/
theorem Run.dirty_of_outdates (run : Run env world (after ++ moment :: before))
    (outdates : Outdates id revision moment.1 moment.2)
    (kept : ∀ later ∈ after, ¬ Clears id revision later.1 later.2) {dirty closed : Bool}
    (mark : world.cache.entries.get? id = some (.pending revision dirty closed)) :
    dirty = true ∧ closed = false := by
  -- By induction on what has happened since: every step leaves the mark dirty, or takes it away.
  induction after generalizing world dirty closed with
  | nil =>
    cases run with
    | step run action taken =>
      cases mark.symm.trans (outdates.mark taken)
      exact ⟨rfl, rfl⟩
  | cons last rest ih =>
    cases run with
    | step run action taken =>
      have earlier : ∀ later ∈ rest, ¬ Clears id revision later.1 later.2 :=
        fun later past => kept later (List.mem_cons_of_mem _ past)
      rcases World.mark_of_step taken mark with
        same | fresh | ⟨unchanged, dirtyBefore, closedBefore, entry, rfl, rfl⟩ | cleared
      · exact ih run earlier same
      · -- The parse was started before, so it has no revision above the last one.
        have started := run.started_of_outdates outdates
        have bound : revision ≤ _ := run.coherent.cache.bounded _ started
        omega
      · obtain ⟨rfl, -⟩ := ih run earlier entry
        exact ⟨rfl, rfl⟩
      · exact absurd cleared (kept _ List.mem_cons_self)

/-! ## Storing the outcome of a dirty parse -/

/-- An outcome that is stored takes the place of the mark of its own parse, which is not dirty as
long as parses may be started, or that of the outcome of an older one. -/
theorem Cache.TaskStep.replaced {cache held : Cache α} {task : Task α} {move : Move}
    {file : Identity} {outcome : Outcome α} (taken : TaskStep env cache task move held)
    (fresh : cache.entries.get? file ≠ some (.ready revision outcome))
    (entry : held.entries.get? file = some (.ready revision outcome)) :
    (∃ dirty, cache.entries.get? file = some (.pending revision dirty false) ∧
        (dirty = true → cache.accepting = false)) ∨
      ∃ older old, cache.entries.get? file = some (.ready older old) ∧ older < revision := by
  rcases taken.ready_cases entry with same | ⟨uri, rfl, rfl, rfl, installed⟩
  · exact absurd same fresh
  · -- The step has stored something, so it is the one that does.
    cases taken with
    | installed _ replaced => exact replaced
    | rejected | condemned => exact absurd entry fresh
    | superseded =>
      change (cache.schedule task.id).entries.get? task.id = _ at entry
      rw [get?_schedule, if_pos rfl] at entry
      cases entry

/-- The outcome of a dirty parse is stored only when no parse can be started any more and the end of
the work has not come to its entry. -/
theorem Run.slipsIn_of_installs (run : Run env world (after ++ moment :: before))
    (outdates : Outdates id revision moment.1 moment.2)
    (kept : ∀ later ∈ after, ¬ Clears id revision later.1 later.2)
    {stored : World α × Action} (passed : stored ∈ after ++ moment :: before) {file : Identity}
    {outcome : Outcome α} (installs : Installs env stored file revision outcome) :
    stored ∈ after ∧ file = id ∧ SlipsIn id revision stored := by
  have earlier := run.split.1
  rcases List.mem_append.mp passed with recent | past
  · obtain ⟨between, past, rfl⟩ := List.append_of_mem recent
    have whole : (between ++ stored :: past) ++ moment :: before =
        between ++ stored :: (past ++ moment :: before) := by simp
    rw [whole] at run
    obtain ⟨reached, next, stepped, -⟩ := run.split
    have started := reached.started_of_outdates outdates
    have since : ∀ later ∈ past, ¬ Clears id revision later.1 later.2 :=
      fun later member =>
        kept later (List.mem_append_right _ (List.mem_cons_of_mem _ member))
    -- The task that stores the outcome is the one of the dirty parse.
    obtain ⟨task, member, rfl, rfl⟩ := run.installer installs
    have registered := reached.coherent.cache.registered task member
    obtain rfl := eq_of_rising reached.coherent.cache.rising registered started
    have fresh := reached.accounted.not_ready_of_installs reached.forward installs
    obtain ⟨named, held, same, entry⟩ := installs
    rcases World.step_cases same with ⟨other, _, _, _, _, taken⟩ | ⟨client, -⟩
    · rcases taken.replaced fresh entry with ⟨dirty, mark, ended⟩ | ⟨older, old, ready, below⟩
      · obtain ⟨rfl, -⟩ := reached.dirty_of_outdates outdates since mark
        exact ⟨recent, rfl, named, ended rfl, mark⟩
      · -- No parse of the file is younger than the one whose outcome is held.
        have youngest : task.revision ≤ older := reached.latest _ _ ready _ registered
        omega
    · exact absurd named (client _ _)
  · exfalso
    rcases List.mem_cons.mp past with rfl | past
    · -- An update stores nothing.
      cases installs.1.symm.trans outdates.spec.1
    · -- Its task would have settled the entry before it was marked.
      obtain ⟨task, member, -, rfl, unsettled⟩ := outdates.unsettled earlier
      have accounted := earlier.accounted
      rcases accounted.kept stored past file _ outcome installs with told | ⟨t, ht, same, settled⟩
      · exact accounted.announced_ne earlier.forward member told
      · rw [earlier.coherent.cache.eq_of_revision ht member same, unsettled] at settled
        cases settled

/-- A task that comes to store the outcome of a dirty parse when no parse can be started any more
stores it. -/
theorem Run.installs_of_slipsIn (run : Run env world trail) (passed : moment ∈ trail)
    (slips : SlipsIn id revision moment) : ∃ outcome, Installs env moment id revision outcome := by
  obtain ⟨between, past, rfl⟩ := List.append_of_mem passed
  obtain ⟨reached, next, stepped, -⟩ := run.split
  obtain ⟨named, refusing, mark⟩ := slips
  rcases World.step_cases stepped with ⟨task, member, move, same, -, taken⟩ | ⟨client, -⟩
  · rw [named] at same
    cases same
    obtain rfl := reached.coherent.cache.eq_of_mark member mark
    generalize held : next.cache = cache at taken
    cases taken with
    | rejected _ foreign => exact absurd mark (foreign _ _)
    | condemned _ closed => cases mark.symm.trans closed
    | superseded _ _ accepting => cases refusing.symm.trans accepting
    | @installed uri outcome =>
      refine ⟨outcome, named, next, stepped, ?_⟩
      rw [held, get?_install, if_pos rfl]
  · exact absurd named (client _ _)

/-- After an update with a changed text has marked a parse as dirty, and as long as no close has
taken the mark: its outcome is stored if and only if its task comes to that when no parse can be
started any more and the end of the work has not come to the entry, which does not happen before the
end of the work has begun. If it does not happen, at no time an outcome of that revision is held,
none is answered to a query, and none is announced; if it does, it is announced or has still to be.
-/
theorem outdated_outcome_stored_iff (run : Run env world trail)
    (split : trail = after ++ moment :: before)
    (outdates : Outdates id revision moment.1 moment.2)
    (kept : ∀ later ∈ after, ¬ Clears id revision later.1 later.2) :
    ((∃ stored ∈ trail, ∃ outcome, Installs env stored id revision outcome) ↔
      ∃ late ∈ after, SlipsIn id revision late) ∧
    (world.cache.accepting = true → ∀ late ∈ after, ¬ SlipsIn id revision late) ∧
    ((∀ late ∈ after, ¬ SlipsIn id revision late) →
      (∀ past ∈ world :: trail.map Prod.fst,
        (∀ file outcome, past.cache.entries.get? file ≠ some (.ready revision outcome)) ∧
        (∀ file snapshot, past.cache.cached? file = some snapshot → snapshot.revision ≠ revision) ∧
        ∀ engine : Engine α, engine.cache = past.cache → ∀ snapshot, engine.Gives snapshot →
          snapshot.revision ≠ revision) ∧
      revision ∉ world.cache.announced) ∧
    ((∃ late ∈ after, SlipsIn id revision late) →
      revision ∈ world.cache.announced ∨
        ∃ task ∈ world.cache.tasks, task.revision = revision ∧ task.stage.isUnsettled = false) := by
  subst split
  have recent : ∀ late ∈ after, late ∈ after ++ moment :: before :=
    fun late member => List.mem_append_left _ member
  refine ⟨⟨?_, ?_⟩, fun accepting late member slips => ?_, fun silent => ⟨?_, fun told => ?_⟩, ?_⟩
  · rintro ⟨stored, passed, outcome, installs⟩
    obtain ⟨late, -, slips⟩ := run.slipsIn_of_installs outdates kept passed installs
    exact ⟨stored, late, slips⟩
  · rintro ⟨late, member, slips⟩
    exact ⟨late, recent late member, run.installs_of_slipsIn (recent late member) slips⟩
  · have earlier := run.accepting_of_mem (recent late member) accepting
    cases slips.2.1.symm.trans earlier
  · -- Whatever was held at some time was stored before that.
    intro past found
    have unheld : ∀ file outcome,
        past.cache.entries.get? file ≠ some (.ready revision outcome) := by
      intro file outcome entry
      obtain ⟨steps, reached, within⟩ := run.to_past found
      obtain ⟨stored, passed, installs⟩ := reached.accounted.stored file revision outcome entry
      obtain ⟨late, -, slips⟩ := run.slipsIn_of_installs outdates kept (within passed) installs
      exact silent stored late slips
    have uncached : ∀ file snapshot, past.cache.cached? file = some snapshot →
        snapshot.revision ≠ revision := by
      rintro file snapshot cached rfl
      exact unheld file snapshot.outcome (cached?_eq_some.mp cached)
    refine ⟨unheld, uncached, fun engine same snapshot gives => ?_⟩
    obtain ⟨file, cached⟩ := gives.held
    exact uncached file snapshot (same ▸ cached)
  · obtain ⟨file, uri, outcome, sent, event⟩ := mem_announced.mp told
    obtain ⟨⟨stored, passed, installs⟩, -⟩ :=
      run.accounted.told file revision uri outcome sent event
    obtain ⟨late, -, slips⟩ := run.slipsIn_of_installs outdates kept passed installs
    exact silent stored late slips
  · rintro ⟨late, member, slips⟩
    obtain ⟨outcome, installs⟩ := run.installs_of_slipsIn (recent late member) slips
    exact run.accounted.kept late (recent late member) id revision outcome installs

/-- A text is changed while its parser is running, and the work is ended after the task has found
that: the outcome of the first text is seen by nobody. -/
theorem outdated_outcome_unseen_after_edit : ∃ world trail moment after before,
    Run (Trial.env 1) world trail ∧ trail = after ++ moment :: before ∧
    Outdates Trial.file 1 moment.1 moment.2 ∧
    (∀ later ∈ after, ¬ Clears Trial.file 1 later.1 later.2) ∧
    world.cache.accepting = false ∧ world.cache.started = [(Trial.file, 1), (Trial.file, 2)] ∧
    (¬ ∃ stored ∈ trail, ∃ outcome, Installs (Trial.env 1) stored Trial.file 1 outcome) ∧
    1 ∉ world.cache.announced := by
  obtain ⟨world, trail, moment, after, before, run, split, outdates, kept, refusing, started,
      taken⟩ : ∃ world trail moment after before,
      Run (Trial.env 1) world trail ∧ trail = after ++ moment :: before ∧
      Outdates Trial.file 1 moment.1 moment.2 ∧
      (∀ later ∈ after, ¬ Clears Trial.file 1 later.1 later.2) ∧
      world.cache.accepting = false ∧ world.cache.started = [(Trial.file, 1), (Trial.file, 2)] ∧
      ∀ later ∈ after, later.1.cache.accepting = true ∨
        later.1.cache.underway? Trial.file ≠ some 1 :=
    ⟨_, _, _, [_, _, _, _, _, _], _, (Trial.start 1).follow
      [.update Trial.file (Trial.document "unsound"), .proceed (.revise Trial.file false),
        .proceed (.request Trial.file), .move 1 .assignWorker, .move 1 .readDocument,
        .move 1 .launch, .update Trial.file (Trial.document "sound"),
        .proceed (.revise Trial.file false), .move 1 .complete, .move 1 .store, .shutdown,
        .proceed .stopAdmitting, .sweep [Trial.file] Trial.file, .proceed (.abandon [])] rfl,
      rfl, by decide, by decide, rfl, rfl, by decide⟩
  have silent : ∀ late ∈ after, ¬ SlipsIn Trial.file 1 late := by
    rintro late member ⟨-, refused, mark⟩
    rcases taken late member with accepting | gone
    · cases refused.symm.trans accepting
    · exact gone (underway?_eq_some.mpr ⟨_, _, mark⟩)
  obtain ⟨stored, -, unseen, -⟩ := outdated_outcome_stored_iff run split outdates kept
  refine ⟨world, trail, moment, after, before, run, split, outdates, kept, refusing, started, ?_,
    (unseen silent).2⟩
  intro found
  obtain ⟨late, member, slips⟩ := stored.mp found
  exact silent late member slips

/-- A text is changed after its parser has ended, and its task comes to store the outcome when no
parse is started any more and the end of the work has not come to its entry. The outcome of the
first text is stored, announced, and still answered to queries when the work is over, though the
second text is the one that is open. -/
theorem outdated_outcome_slips_in : ∃ world trail moment after before,
    Run (Trial.env 1) world trail ∧ trail = after ++ moment :: before ∧
    Outdates Trial.file 1 moment.1 moment.2 ∧
    (∀ later ∈ after, ¬ Clears Trial.file 1 later.1 later.2) ∧
    world.calls = [] ∧ world.cache.tasks = [] ∧
    world.cache.documents.get? Trial.file = some (Trial.document "sound") ∧
    world.cache.cached? Trial.file =
      some ⟨1, .failure [Problem.unlocated "unsound"]⟩ ∧
    world.cache.announced = [1] ∧
    ∀ engine : Engine Unit, engine.cache = world.cache →
      engine.Gives ⟨1, .failure [Problem.unlocated "unsound"]⟩ := by
  obtain ⟨world, trail, moment, after, before, run, split, outdates, kept, calls, tasks, opened,
      cached, announced⟩ : ∃ world trail moment after before,
      Run (Trial.env 1) world trail ∧ trail = after ++ moment :: before ∧
      Outdates Trial.file 1 moment.1 moment.2 ∧
      (∀ later ∈ after, ¬ Clears Trial.file 1 later.1 later.2) ∧
      world.calls = [] ∧ world.cache.tasks = [] ∧
      world.cache.documents.get? Trial.file = some (Trial.document "sound") ∧
      world.cache.cached? Trial.file = some ⟨1, .failure [Problem.unlocated "unsound"]⟩ ∧
      world.cache.announced = [1] :=
    ⟨_, _, _, [_, _, _, _, _, _], _, (Trial.start 1).follow
      [.update Trial.file (Trial.document "unsound"), .proceed (.revise Trial.file false),
        .proceed (.request Trial.file), .move 1 .assignWorker, .move 1 .readDocument,
        .move 1 .launch, .move 1 .complete, .update Trial.file (Trial.document "sound"),
        .proceed (.revise Trial.file false), .shutdown, .move 1 .store, .proceed .stopAdmitting,
        .move 1 .publish, .sweep [Trial.file] Trial.file, .proceed (.abandon [])] rfl,
      rfl, by decide, by decide, rfl, rfl, rfl, rfl, rfl⟩
  refine ⟨world, trail, moment, after, before, run, split, outdates, kept, calls, tasks, opened,
    cached, announced, fun engine same => .inl ⟨0, Trial.file, ?_⟩⟩
  rw [← same] at cached
  have entry := cached?_eq_some.mp cached
  simp only [Engine.ask, Engine.consult, lookup, entry]

end

end DiagnosticServer
