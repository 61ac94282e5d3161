import DiagnosticServer.Proofs.Cache.Mirror

/-!
# One file by itself

What a world does for one file does not depend on the others, but for the numbers of its parses.
`Cache.Apart` says that a cache holds of a file what it held before, which is so whenever something
is done to another file. A step of the whole world is then a step for the file by itself
(`World.Mirrors.step`), or none (`World.Mirrors.stray`).
-/

namespace DiagnosticServer

variable {α : Type}

open Cache

namespace Cache

/-! ## What is done to other files -/

/-- Whether a cache holds of a file what it held before. -/
structure Apart (file : Identity) (cache next : Cache α) : Prop where
  /-- The entry is the same. -/
  entry : next.entries.get? file = cache.entries.get? file
  /-- The open document is the same. -/
  document : next.documents.get? file = cache.documents.get? file
  /-- The tasks are the same. -/
  tasks : next.tasksOf file = cache.tasksOf file
  /-- If a parse was started, then of another file. -/
  last : next.lastRevision = cache.lastRevision ∨
    next.lastRevision = cache.lastRevision + 1 ∧
      ∃ id, id ≠ file ∧ (id, cache.lastRevision + 1) ∈ next.started
  /-- If a task is done with its entry, then with that of another file. -/
  finished : next.finished = cache.finished ∨
    ∃ id revision, id ≠ file ∧ (id, revision) ∈ next.started ∧
      next.finished = revision :: cache.finished
  /-- The client was told nothing. -/
  pushes : next.pushes file = cache.pushes file

/-- What is done to other files does not matter. -/
theorem Mirrors.apart {file : Identity} {parses : List (Identity × Nat)} {whole own next : Cache α}
    (rising : parses.Pairwise fun earlier later => earlier.2 < later.2)
    (mirrors : Mirrors file parses whole own) (apart : Apart file whole next)
    (known : ∀ parse ∈ next.started, parse ∈ parses) : Mirrors file parses next own := by
  refine ⟨known, ?_, ?_, ?_, ?_, ?_, ?_, mirrors.accepting, mirrors.admitting, ?_, ?_⟩
  · intro task member
    rw [apart.tasks] at member
    exact mirrors.parsed task member
  · rw [apart.entry]
    exact mirrors.held
  · rw [apart.entry]
    exact mirrors.entry
  · rw [apart.document]
    exact mirrors.document
  · rw [apart.tasks]
    exact mirrors.tasks
  · rcases apart.last with same | ⟨next, id, other, started⟩
    · rw [same]
      exact mirrors.last
    · -- A parse of another file does not add to the rank.
      rw [next, rank_succ_of_ne rising other (known _ started)]
      exact mirrors.last
  · rcases apart.finished with same | ⟨id, revision, other, started, added⟩
    · rw [same]
      exact mirrors.finished
    · have foreign : (file, revision) ∉ parses :=
        fun own => other (eq_of_rising rising (known _ started) own)
      simp only [added, List.filter_cons, foreign, decide_false, Bool.false_eq_true, if_false]
      exact mirrors.finished
  · rw [apart.pushes]
    exact mirrors.pushes

namespace Apart

variable {file id : Identity} {cache : Cache α}

/-- Where nothing is done, all is the same. -/
theorem refl (file : Identity) (cache : Cache α) : Apart file cache cache :=
  ⟨rfl, rfl, rfl, .inl rfl, .inl rfl, rfl⟩

/-- A parse of another file is started. -/
theorem schedule (other : id ≠ file) : Apart file cache (cache.schedule id) := by
  refine ⟨?_, rfl, ?_, .inr ⟨rfl, id, other, ?_⟩, .inl rfl, rfl⟩
  · rw [get?_schedule, if_neg other.symm]
  · rw [tasksOf_schedule, if_neg other, List.append_nil]
  · exact List.mem_append_right _ (List.mem_singleton.mpr rfl)

/-- So it is if it is only asked for. -/
theorem start (other : id ≠ file) : Apart file cache (cache.start id).1 := by
  unfold Cache.start
  split_ifs
  · exact schedule other
  · exact refl file cache

/-- Or joined. -/
theorem requestParse (other : id ≠ file) : Apart file cache (cache.requestParse id).1 := by
  unfold Cache.requestParse
  split
  · exact refl file cache
  · exact start other

/-- Another file is looked up. -/
theorem lookup (other : id ≠ file) : Apart file cache (cache.lookup id).1 := by
  unfold Cache.lookup
  split
  · exact refl file cache
  · exact refl file cache
  · exact start other

/-- The entry of another file is another one. -/
theorem setEntry {entries : Table Identity (Entry α)}
    (same : entries.get? file = cache.entries.get? file) :
    Apart file cache { cache with entries := entries } :=
  { refl file cache with entry := same }

/-- A text is recorded for another file. -/
theorem recordDocument (other : id ≠ file) (document : Document) :
    Apart file cache (cache.recordDocument id document).1 := by
  refine { refl file cache with document := ?_ }
  rw [get?_recordDocument, if_neg other.symm]

/-- The text of another file is forgotten. -/
theorem forgetDocument (other : id ≠ file) : Apart file cache (cache.forgetDocument id) := by
  refine { refl file cache with document := ?_ }
  rw [get?_forgetDocument, if_neg other.symm]

/-- The entry of another file is told of a text. -/
theorem reviseEntry (other : id ≠ file) (unchanged : Bool) :
    Apart file cache (cache.reviseEntry id unchanged).1 := by
  unfold Cache.reviseEntry
  split
  · refine setEntry ?_
    rw [Table.get?_insert, if_neg other.symm]
  · exact refl file cache
  · exact refl file cache

/-- The outcome of another file is dropped. -/
theorem evict (other : id ≠ file) : Apart file cache (cache.evict id) := by
  unfold Cache.evict
  split
  · refine setEntry ?_
    rw [Table.get?_insert, if_neg other.symm]
  · refine setEntry ?_
    rw [Table.get?_erase, if_neg other.symm]
  · exact refl file cache

/-- What starts no parse and ends no task may come before something else. -/
theorem after {between next : Cache α} (apart : Apart file between next)
    (quiet : Apart file cache between) (last : between.lastRevision = cache.lastRevision)
    (finished : between.finished = cache.finished) : Apart file cache next where
  entry := apart.entry.trans quiet.entry
  document := apart.document.trans quiet.document
  tasks := apart.tasks.trans quiet.tasks
  last := last ▸ apart.last
  finished := finished ▸ apart.finished
  pushes := apart.pushes.trans quiet.pushes

/-- The text of another file is recorded and parsed. -/
theorem updateDocument (other : id ≠ file) (document : Document) :
    Apart file cache (cache.updateDocument id document).1 := by
  have recorded : Apart file cache (cache.recordDocument id document).1 :=
    recordDocument other document
  unfold Cache.updateDocument
  generalize noted : cache.recordDocument id document = record at recorded ⊢
  obtain ⟨held, unchanged⟩ := record
  have revised : Apart file cache (held.reviseEntry id unchanged).1 := by
    cases noted
    exact (reviseEntry other _).after recorded rfl rfl
  -- Until the parse is asked for, no revision is given out and no task ends.
  have quiet : (held.reviseEntry id unchanged).1.lastRevision = cache.lastRevision ∧
      (held.reviseEntry id unchanged).1.finished = cache.finished := by
    cases noted
    unfold Cache.reviseEntry
    split <;> exact ⟨rfl, rfl⟩
  dsimp only at revised ⊢
  generalize held.reviseEntry id unchanged = revision at revised quiet ⊢
  obtain ⟨told, handle⟩ := revision
  cases handle with
  | none => exact (requestParse other).after revised quiet.1 quiet.2
  | some handle => exact revised

/-- A document of another file is closed. -/
theorem closeDocument (other : id ≠ file) (evicting : Bool) :
    Apart file cache (cache.closeDocument evicting id) := by
  unfold Cache.closeDocument
  cases evicting with
  | true => exact (evict other).after (forgetDocument other) rfl rfl
  | false => exact forgetDocument other

/-- A task of another file is not among those of the file. -/
theorem revision_ne {task : Task α} (coherent : cache.Coherent) (member : task ∈ cache.tasks)
    (other : task.id ≠ file) : ∀ own ∈ cache.tasksOf file, own.revision ≠ task.revision := by
  intro own found same
  obtain ⟨among, about⟩ := List.mem_filter.mp found
  rw [coherent.eq_of_revision among member same] at about
  exact other (of_decide_eq_true about)

/-- A task that does not parse the file takes another stage. -/
theorem moveTask {revision : Nat} (foreign : ∀ own ∈ cache.tasksOf file, own.revision ≠ revision)
    (stage : Stage α) : Apart file cache (cache.moveTask revision stage) := by
  refine { refl file cache with tasks := ?_ }
  rw [tasksOf_moveTask]
  refine (List.map_congr_left fun own found => ?_).trans (List.map_id _)
  rw [if_neg (foreign own found), id_eq]

/-- A task that does not parse the file is dropped. -/
theorem dropTask {revision : Nat}
    (foreign : ∀ own ∈ cache.tasksOf file, own.revision ≠ revision) :
    Apart file cache (cache.dropTask revision) := by
  refine { refl file cache with tasks := ?_ }
  rw [tasksOf_dropTask]
  exact List.filter_eq_self.mpr fun own found => decide_eq_true (foreign own found)

/-- A task of another file does something. -/
theorem move {env : Environment α} {task : Task α} {step : Move} {next : Cache α}
    (coherent : cache.Coherent) (member : task ∈ cache.tasks) (other : task.id ≠ file)
    (taken : TaskStep env cache task step next) : Apart file cache next := by
  have foreign := revision_ne coherent member other
  have started : (task.id, task.revision) ∈ cache.started := coherent.registered task member
  -- A task settles no entry but that of its own file.
  have entry : next.entries.get? file = cache.entries.get? file := by
    rcases taken.entry_cases file with same | ⟨own, -⟩
    · exact same
    · exact absurd own.symm other
  have moved (stage : Stage α) : (cache.moveTask task.revision stage).tasksOf file =
      cache.tasksOf file := (moveTask foreign stage).tasks
  have dropped : (cache.dropTask task.revision).tasksOf file = cache.tasksOf file :=
    (dropTask foreign).tasks
  cases taken with
  | admitted | read | unreadable | condemned | orphaned => exact moveTask foreign _
  | stopped => exact dropTask foreign
  | launched => exact { moveTask foreign _ with pushes := pushes_called .. }
  | completed => exact ⟨rfl, rfl, moved _, .inl rfl, .inl rfl, rfl⟩
  | lost => exact ⟨rfl, rfl, dropped, .inl rfl, .inl rfl, rfl⟩
  | rejected =>
    exact ⟨rfl, rfl, dropped, .inl rfl, .inr ⟨_, _, other, started, rfl⟩, rfl⟩
  | installed =>
    exact ⟨entry, rfl, moved _, .inl rfl, .inr ⟨_, _, other, started, rfl⟩, rfl⟩
  | superseded =>
    -- The new parse is one of the other file too.
    have scheduled : Apart file cache (cache.schedule task.id) := schedule other
    have still : ((cache.schedule task.id).retire task).tasksOf file = cache.tasksOf file := by
      refine (dropTask ?_).tasks.trans scheduled.tasks
      exact scheduled.tasks ▸ foreign
    exact ⟨entry, rfl, still, scheduled.last,
      .inr ⟨_, _, other, List.mem_append_left _ started, rfl⟩, rfl⟩
  | refused =>
    obtain ⟨entries, discarded⟩ := cache.discardPending_eq task.id task.revision
    rw [discarded] at entry ⊢
    exact ⟨entry, rfl, dropped, .inl rfl, .inl rfl, rfl⟩
  | discarded =>
    obtain ⟨entries, discarded⟩ := cache.discardPending_eq task.id task.revision
    rw [discarded] at entry ⊢
    exact ⟨entry, rfl, dropped, .inl rfl, .inr ⟨_, _, other, started, rfl⟩, rfl⟩
  | published =>
    refine ⟨rfl, rfl, dropped, .inl rfl, .inl rfl, ?_⟩
    rw [pushes_announced, if_neg other, List.append_nil]

end Apart

end Cache

/-! ## Steps of the world -/

/-- The file that an action is about, if it is about one. -/
def Action.file? (world : World α) : Action → Option Identity
  | update id _ | close id | request id | look id => some id
  | proceed call => call.file?
  | move revision _ => (world.cache.tasks.find? fun task => task.revision = revision).map Task.id
  | edit _ | shutdown | sweep _ _ => none

/-- An action with other revisions. -/
def Action.rename (change : Nat → Nat) : Action → Action
  | move revision step => .move (change revision) step
  | edit files => .edit files
  | update id document => .update id document
  | close id => .close id
  | request id => .request id
  | look id => .look id
  | shutdown => .shutdown
  | proceed call => .proceed call
  | sweep left id => .sweep left id

namespace World

/-- Nobody but the disk changes the files. -/
theorem files_of_step {env : Environment α} {world next : World α} {action : Action}
    (taken : world.step env action = some next) (unedited : ∀ files, action ≠ .edit files) :
    next.files = world.files := by
  cases action with
  | edit files => exact absurd rfl (unedited files)
  | update | request | look =>
    cases taken
    rfl
  | close | shutdown =>
    simp only [step] at taken
    split_ifs at taken <;> cases taken <;> rfl
  | proceed call =>
    simp only [step] at taken
    split_ifs at taken
    cases call with
    | revise id unchanged =>
      simp only [proceed] at taken
      split at taken <;> cases taken <;> rfl
    | request | evict | stopAdmitting =>
      cases taken
      rfl
    | abandon left =>
      cases left with
      | nil =>
        cases taken
        rfl
      | cons => cases taken
  | sweep =>
    simp only [step] at taken
    split_ifs at taken
    cases taken
    rfl
  | move revision move =>
    simp only [step] at taken
    split at taken
    · cases taken
    · obtain ⟨cache, -, rfl⟩ := Option.map_eq_some_iff.mp taken
      rfl

/-- Whether a world of its own holds of a file what the whole world holds of it. -/
structure Mirrors (file : Identity) (parses : List (Identity × Nat)) (whole own : World α) :
    Prop where
  /-- The cache does. -/
  cache : whole.cache.Mirrors file parses own.cache
  /-- The files on the disk are the same. -/
  files : own.files = whole.files
  /-- The calls are those about the file. -/
  calls : own.calls = whole.calls.filter fun call => call.file? = some file

namespace Mirrors

variable {file : Identity} {parses : List (Identity × Nat)} {whole own : World α}
  {cache cache' : Cache α} {call rest : Remainder} (mirrors : Mirrors file parses whole own)

include mirrors

/-- The caches become others that are alike. -/
theorem withCache (alike : cache.Mirrors file parses cache') :
    Mirrors file parses (whole.withCache cache) (own.withCache cache') :=
  { mirrors with cache := alike }

/-- A call about the file begins in both. -/
theorem begun (about : rest.file? = some file) (alike : cache.Mirrors file parses cache') :
    Mirrors file parses (whole.begun rest cache) (own.begun rest cache') := by
  refine ⟨alike, mirrors.files, ?_⟩
  rw [begun_calls, begun_calls, List.filter_cons_of_pos (by simpa using about), mirrors.calls]

/-- A call ends in both. -/
theorem finish (alike : cache.Mirrors file parses cache') :
    Mirrors file parses (whole.finish call cache) (own.finish call cache') := by
  refine ⟨alike, mirrors.files, ?_⟩
  rw [World.finish, World.finish, mirrors.calls, List.erase_filter]

/-- A call about another file begins in the whole. -/
theorem begun_stray (other : rest.file? ≠ some file) (alike : cache.Mirrors file parses own.cache) :
    Mirrors file parses (whole.begun rest cache) own := by
  refine ⟨alike, mirrors.files, ?_⟩
  rw [begun_calls, List.filter_cons_of_neg (by simpa using other), mirrors.calls]

/-- A call about another file ends in the whole. -/
theorem finish_stray (other : call.file? ≠ some file)
    (alike : cache.Mirrors file parses own.cache) :
    Mirrors file parses (whole.finish call cache) own := by
  refine ⟨alike, mirrors.files, ?_⟩
  rw [World.finish, ← List.erase_filter, List.erase_of_not_mem, mirrors.calls]
  intro member
  exact other (of_decide_eq_true (List.mem_filter.mp member).2)

variable {env : Environment α} {action : Action} {next : World α}
  (rising : parses.Pairwise fun earlier later => earlier.2 < later.2)
  (taken : whole.step env action = some next)
  (known : ∀ parse ∈ next.cache.started, parse ∈ parses)

include rising taken known

/-- A step about another file is none for the file by itself. -/
theorem stray (coherent : whole.cache.Coherent) {id : Identity}
    (about : action.file? whole = some id) (other : id ≠ file) :
    Mirrors file parses next own := by
  have foreign : some id ≠ some file := fun same => other (Option.some.inj same)
  have alike (apart : Apart file whole.cache next.cache) :
      next.cache.Mirrors file parses own.cache := mirrors.cache.apart rising apart known
  cases action with
  | update id document =>
    cases about
    cases taken
    exact mirrors.begun_stray foreign (alike (.recordDocument other document))
  | close id =>
    cases about
    simp only [World.step] at taken
    split_ifs at taken <;> cases taken
    · exact mirrors.begun_stray foreign (alike (.forgetDocument other))
    · exact { mirrors with cache := alike (.forgetDocument other) }
  | request id =>
    cases about
    cases taken
    exact { mirrors with cache := alike (.requestParse other) }
  | look id =>
    cases about
    cases taken
    exact { mirrors with cache := alike (.lookup other) }
  | proceed call =>
    simp only [World.step] at taken
    split_ifs at taken
    cases call with
    | revise id unchanged =>
      cases about
      have revised : Apart file whole.cache (whole.cache.reviseEntry id unchanged).1 :=
        .reviseEntry other unchanged
      simp only [World.proceed] at taken
      split at taken <;> rename_i result <;> rw [result] at revised <;> cases taken
      · exact mirrors.finish_stray foreign (alike revised)
      · have ended : Mirrors file parses (whole.finish (.revise id unchanged) _) own :=
          mirrors.finish_stray foreign (alike revised)
        exact ended.begun_stray foreign (alike revised)
    | request id =>
      cases about
      cases taken
      exact mirrors.finish_stray foreign (alike (.requestParse other))
    | evict id =>
      cases about
      cases taken
      exact mirrors.finish_stray foreign (alike (.evict other))
    | stopAdmitting | abandon => cases about
  | move revision step =>
    simp only [World.step] at taken
    split at taken
    · cases taken
    · rename_i task found
      rw [Action.file?, found, Option.map_some] at about
      cases about
      obtain ⟨cache, applied, rfl⟩ := Option.map_eq_some_iff.mp taken
      have member := List.mem_of_find?_eq_some found
      exact { mirrors with cache := alike (.move coherent member other (.of_apply applied)) }
  | edit | shutdown | sweep => cases about

/-- Of the file by itself, a task of the file takes the step that it takes in the whole. -/
theorem move (oblivious : Oblivious env.parser) (coherent : whole.Coherent)
    (fitting : own.cache.Coherent) (accepting : next.cache.accepting = true) {revision : Nat}
    {step : Move} (same : action = .move revision step)
    (about : ∀ id, action.file? whole = some id → id = file) :
    ∃ after, own.step env (.move (rank file parses revision) step) = some after ∧
      Mirrors file parses next after := by
  subst same
  have before := accepting_of_step taken accepting
  simp only [World.step] at taken
  split at taken
  · cases taken
  · rename_i task found
    obtain ⟨cache, applied, rfl⟩ := Option.map_eq_some_iff.mp taken
    have member := List.mem_of_find?_eq_some found
    have numbered : task.revision = revision := by simpa using List.find?_some found
    have mine : task.id = file := about task.id (by rw [Action.file?, found, Option.map_some])
    obtain ⟨twin, twinned, twins⟩ := mirrors.cache.exists_twin member mine
    have stepped : TaskStep (env.on whole.files) whole.cache task step cache := .of_apply applied
    have unmindful : Oblivious (env.on whole.files).parser := oblivious
    obtain ⟨after, applied', alike⟩ := mirrors.cache.move unmindful rising coherent.cache before
      (coherent.admitting before) member twins stepped known
    rw [← mirrors.files] at applied'
    have moved : own.step env (.move twin.revision step) = _ :=
      World.step_move fitting twinned step
    rw [applied', Option.map_some, twins.named, numbered] at moved
    exact ⟨own.withCache after, moved, mirrors.withCache alike⟩

/-- A call about the file goes on for the file by itself as it does in the whole. -/
theorem proceed (accepting : whole.cache.accepting = true) (coherent : whole.Coherent)
    (same : action = .proceed call) (about : ∀ id, call.file? = some id → id = file) :
    ∃ after, own.step env (.proceed call) = some after ∧ Mirrors file parses next after := by
  subst same
  simp only [World.step] at taken
  split_ifs at taken with begun
  -- A call that is about no file is part of the end of the work, which has not begun.
  have mine : call.file? = some file := by
    cases found : call.file? with
    | none => cases accepting.symm.trans (coherent.ending call begun found)
    | some id => rw [about id found]
  have here : call ∈ own.calls := by
    rw [mirrors.calls]
    exact List.mem_filter.mpr ⟨begun, decide_eq_true mine⟩
  rw [World.step, if_pos here]
  cases call with
  | revise id unchanged =>
    cases mine
    obtain ⟨alike, handed⟩ := mirrors.cache.reviseEntry unchanged
    simp only [World.proceed] at taken ⊢
    generalize whole.cache.reviseEntry file unchanged = revised at taken alike handed
    generalize own.cache.reviseEntry file unchanged = revised' at alike handed ⊢
    obtain ⟨cache, handle⟩ := revised
    obtain ⟨cache', handle'⟩ := revised'
    subst handed
    cases handle with
    | none =>
      cases taken
      exact ⟨_, rfl, (mirrors.finish alike).begun rfl alike⟩
    | some handle =>
      cases taken
      exact ⟨_, rfl, mirrors.finish alike⟩
  | request id =>
    cases mine
    cases taken
    exact ⟨_, rfl, mirrors.finish (mirrors.cache.requestParse rising accepting known)⟩
  | evict id =>
    cases mine
    cases taken
    exact ⟨_, rfl, mirrors.finish mirrors.cache.evict⟩
  | stopAdmitting | abandon => cases mine

/-- A step that is not about another file is one for the file by itself. -/
theorem step (oblivious : Oblivious env.parser) (coherent : whole.Coherent)
    (fitting : own.cache.Coherent) (accepting : next.cache.accepting = true)
    (unedited : ∀ files, action ≠ .edit files)
    (about : ∀ id, action.file? whole = some id → id = file) :
    ∃ after, own.step env (action.rename (rank file parses)) = some after ∧
      Mirrors file parses next after := by
  have before := accepting_of_step taken accepting
  cases action with
  | edit files => exact absurd rfl (unedited files)
  | update id document =>
    cases about id rfl
    cases taken
    obtain ⟨alike, same⟩ := mirrors.cache.recordDocument document
    refine ⟨_, rfl, ?_⟩
    rw [same]
    exact mirrors.begun rfl alike
  | close id =>
    cases about id rfl
    simp only [World.step, Action.rename] at taken ⊢
    split_ifs at taken ⊢ <;> cases taken
    · exact ⟨_, rfl, mirrors.begun rfl mirrors.cache.forgetDocument⟩
    · exact ⟨_, rfl, mirrors.withCache mirrors.cache.forgetDocument⟩
  | request id =>
    cases about id rfl
    cases taken
    exact ⟨_, rfl, mirrors.withCache (mirrors.cache.requestParse rising before known)⟩
  | look id =>
    cases about id rfl
    cases taken
    exact ⟨_, rfl, mirrors.withCache (mirrors.cache.lookup rising before known).1⟩
  | shutdown =>
    simp only [World.step, before, if_true] at taken
    cases taken
    cases accepting
  | proceed call => exact mirrors.proceed rising taken known before coherent rfl about
  | sweep left id =>
    simp only [World.step] at taken
    split_ifs at taken with begun
    cases before.symm.trans (coherent.ending _ begun.1 rfl)
  | move revision step =>
    exact mirrors.move rising taken known oblivious coherent fitting accepting rfl about

end Mirrors

end World

end DiagnosticServer
