import DiagnosticServer.Proofs.Cache.Account

/-!
# Outcomes that were stored

A revision stands for one parse of one file and for one outcome of it: no task stores its outcome
twice (`Run.installs_unique`), whatever becomes of the entry in the meantime. What is held for a
file belongs to the youngest parse of it, so of two outcomes that were held one after the other the
later one is not that of an older parse (`Run.cached_mono`).
-/

namespace DiagnosticServer

variable {α : Type}

open Cache

section

variable {env : Environment α} {world : World α} {moment : World α × Action}
  {between past trail : List (World α × Action)}

/-- A run that has been through a moment came to it and went on from it. -/
theorem Run.split (run : Run env world (between ++ moment :: past)) :
    Run env moment.1 past ∧
      ∃ next, moment.1.step env moment.2 = some next ∧ Run env next (moment :: past) := by
  generalize whole : between ++ moment :: past = trail at run
  induction run generalizing between with
  | start files => simp at whole
  | @step before next trail run action taken ih =>
    cases between with
    | nil =>
      cases whole
      exact ⟨run, next, taken, run.step action taken⟩
    | cons last rest =>
      cases whole
      exact ih rfl

variable {id other : Identity} {revision : Nat} {outcome : Outcome α}

/-- An outcome is stored by the task of that file and revision. -/
theorem Run.installer (run : Run env world (between ++ moment :: past))
    (installs : Installs env moment id revision outcome) :
    ∃ task ∈ moment.1.cache.tasks, task.id = id ∧ task.revision = revision := by
  obtain ⟨before, next, stepped, -⟩ := run.split
  -- The outcome was not held before, so it is that of the task which took the step.
  have fresh := before.accounted.not_ready_of_installs before.forward installs
  obtain ⟨named, after, same, entry⟩ := installs
  cases stepped.symm.trans same
  rcases World.step_cases stepped with ⟨task, member, move, -, -, taken⟩ | ⟨client, -⟩
  · rcases taken.ready_cases entry with held | ⟨uri, -, own, numbered, -⟩
    · exact absurd held fresh
    · exact ⟨task, member, own.symm, numbered.symm⟩
  · exact absurd named (client _ _)

/-- An outcome that was stored is that of a parse that was started. -/
theorem Run.started_of_installs (run : Run env world trail) (passed : moment ∈ trail)
    (installs : Installs env moment id revision outcome) :
    (id, revision) ∈ world.cache.started := by
  obtain ⟨between, past, rfl⟩ := List.append_of_mem passed
  obtain ⟨task, member, rfl, rfl⟩ := run.installer installs
  have registered := run.split.1.coherent.cache.registered task member
  exact (run.started moment passed).subset registered

/-- A revision stands for one file and for one outcome of it. -/
theorem Run.installs_unique (run : Run env world trail) {later : World α × Action}
    {otherOutcome : Outcome α} (passed : moment ∈ trail) (follows : later ∈ trail)
    (installs : Installs env moment id revision outcome)
    (repeats : Installs env later other revision otherOutcome) :
    other = id ∧ otherOutcome = outcome := by
  -- Both are one moment, at which one task took one step.
  have once : Once trail (.move revision .store) moment := run.once nofun passed installs.1
  obtain rfl : later = moment := once.2.2 later follows repeats.1
  obtain ⟨between, past, rfl⟩ := List.append_of_mem passed
  obtain ⟨task, member, rfl, numbered⟩ := run.installer installs
  obtain ⟨second, found, rfl, same⟩ := run.installer repeats
  obtain rfl := run.split.1.coherent.cache.eq_of_revision member found (numbered.trans same.symm)
  obtain ⟨-, next, stepped, held⟩ := installs
  obtain ⟨-, after, steppedToo, heldToo⟩ := repeats
  cases stepped.symm.trans steppedToo
  cases held.symm.trans heldToo
  exact ⟨rfl, rfl⟩

/-- An outcome that is stored after another one of the same file is that of a younger parse. -/
theorem Run.lt_of_installs (run : Run env world (between ++ moment :: past))
    {earlier : World α × Action} {older : Nat} {oldOutcome : Outcome α}
    (passed : earlier ∈ past) (first : Installs env earlier id older oldOutcome)
    (installs : Installs env moment id revision outcome) : older < revision := by
  obtain ⟨before, next, stepped, after⟩ := run.split
  have started := after.started_of_installs (List.mem_cons_of_mem _ passed) first
  obtain ⟨named, held, same, entry⟩ := installs
  cases stepped.symm.trans same
  have below : older ≤ revision := after.latest id _ entry older started
  refine Nat.lt_of_le_of_ne below ?_
  rintro rfl
  -- The task would have stored its outcome twice.
  rw [named] at stepped
  exact before.forward.new stepped nofun earlier passed first.1

/-! ## Outcomes that were looked up -/

/-- Of two outcomes that were held for a file one after the other, the later one is that of the same
parse or of a younger one; of a younger one if and only if an outcome of the file was stored in
between. -/
theorem Run.cached_mono {later : World α} {first second : Snapshot α}
    (run : Run env world past) (further : Run env later (between ++ past))
    (held : world.cache.cached? id = some first) (found : later.cache.cached? id = some second) :
    first.revision ≤ second.revision ∧
      (first.revision < second.revision ↔
        ∃ moment ∈ between, ∃ revision outcome, Installs env moment id revision outcome) := by
  have heldEntry := cached?_eq_some.mp held
  have foundEntry := cached?_eq_some.mp found
  obtain ⟨stored, passed, installed⟩ := run.accounted.stored id _ _ heldEntry
  have started := further.started_of_installs (List.mem_append_right _ passed) installed
  refine ⟨further.latest id _ foundEntry _ started, fun above => ?_, ?_⟩
  · -- The later outcome was stored at some moment, and not before the first look.
    obtain ⟨moment, among, installs⟩ := further.accounted.stored id _ _ foundEntry
    rcases List.mem_append.mp among with recent | old
    · exact ⟨moment, recent, _, _, installs⟩
    · have known := run.started_of_installs old installs
      have bound : second.revision ≤ first.revision := run.latest id _ heldEntry _ known
      omega
  · rintro ⟨moment, recent, revision, outcome, installs⟩
    have known := further.started_of_installs (List.mem_append_left _ recent) installs
    have bound : revision ≤ second.revision := further.latest id _ foundEntry _ known
    obtain ⟨after, before, rfl⟩ := List.append_of_mem recent
    rw [List.append_assoc, List.cons_append] at further
    have risen := further.lt_of_installs (List.mem_append_right _ passed) installed installs
    exact Nat.lt_of_lt_of_le risen bound

end

end DiagnosticServer
