import Mathlib.Order.Monotone.Basic
import DiagnosticServer.Proofs.Cache.Account
import DiagnosticServer.Proofs.Cache.PushOrder

/-!
# What a cache holds of one file

Revisions are shared by all files, so a parse of a file has a smaller revision where no other files
are parsed. `rank` is that revision. `Cache.Mirrors` says that a cache holds of the file what
another one holds of it, with the revisions renamed: the entry, the open document, the tasks, and
what the client was told.

Each operation keeps two caches alike if it is done to the file in both. A worker that is free in
the whole is free for the file by itself, and what the parser makes of a text is the same whichever
roots it is given, if it does not look at them; so a step of a task is matched by its twin
(`Mirrors.move`).
-/

namespace DiagnosticServer

variable {α : Type}

open Cache

/-! ## Revisions -/

/-- The revision of a parse of a file if only those of the file are counted: how many of them there
are up to it. -/
def rank (file : Identity) (parses : List (Identity × Nat)) (revision : Nat) : Nat :=
  parses.countP fun parse => parse.1 = file ∧ parse.2 ≤ revision

section

variable {file : Identity} {parses : List (Identity × Nat)} {revision other : Nat}

/-- The next revision adds to the rank if it belongs to a parse of the file. -/
theorem rank_succ (file : Identity) (parses : List (Identity × Nat)) (revision : Nat) :
    rank file parses (revision + 1) =
      rank file parses revision + parses.count (file, revision + 1) := by
  unfold rank
  induction parses with
  | nil => rfl
  | cons parse rest ih =>
    obtain ⟨id, number⟩ := parse
    rw [List.countP_cons, List.countP_cons, List.count_cons, ih]
    simp only [decide_eq_true_eq, beq_iff_eq, Prod.mk.injEq]
    by_cases own : id = file
    · -- One more parse is counted just if the bound moves from below its revision up to it.
      simp only [own, true_and]
      split_ifs <;> omega
    · simp only [own, false_and, if_false, Nat.add_zero]

/-- The next revision adds one to the rank if it is that of a parse of the file. -/
theorem rank_succ_of_mem (rising : parses.Pairwise fun earlier later => earlier.2 < later.2)
    (parsed : (file, revision + 1) ∈ parses) :
    rank file parses (revision + 1) = rank file parses revision + 1 := by
  have distinct : parses.Nodup := rising.imp fun below same => by
    rw [same] at below
    exact Nat.lt_irrefl _ below
  rw [rank_succ, List.count_eq_one_of_mem distinct parsed]

/-- It adds nothing if it is that of a parse of another file. -/
theorem rank_succ_of_ne (rising : parses.Pairwise fun earlier later => earlier.2 < later.2)
    {id : Identity} (other : id ≠ file) (parsed : (id, revision + 1) ∈ parses) :
    rank file parses (revision + 1) = rank file parses revision := by
  have absent : (file, revision + 1) ∉ parses :=
    fun own => other (eq_of_rising rising parsed own)
  rw [rank_succ, List.count_eq_zero_of_not_mem absent, Nat.add_zero]

/-- The rank of a parse of the file is above those of all revisions before it. -/
theorem rank_lt_rank (later : revision < other) (parsed : (file, other) ∈ parses) :
    rank file parses revision < rank file parses other := by
  obtain ⟨before, rfl⟩ : ∃ before, other = before + 1 := ⟨other - 1, by omega⟩
  have grown : rank file parses revision ≤ rank file parses before := by
    refine List.countP_mono_left fun parse _ counted => ?_
    rw [decide_eq_true_eq] at counted ⊢
    exact ⟨counted.1, by omega⟩
  have counted : 0 < parses.count (file, before + 1) := List.count_pos_iff.mpr parsed
  rw [rank_succ]
  omega

/-- Parses of the file keep their revisions apart. -/
theorem eq_of_rank (first : (file, revision) ∈ parses) (second : (file, other) ∈ parses)
    (same : rank file parses revision = rank file parses other) : revision = other := by
  have rises : StrictMonoOn (rank file parses) {revision | (file, revision) ∈ parses} :=
    fun _ _ _ parsed later => rank_lt_rank later parsed
  exact rises.injOn first second same

end

/-- An entry with other revisions. -/
def Entry.rename (change : Nat → Nat) : Entry α → Entry α
  | .pending revision dirty closed => .pending (change revision) dirty closed
  | .ready revision outcome => .ready (change revision) outcome

/-- A handle with other revisions. -/
def Handle.rename (change : Nat → Nat) (handle : Handle) : Handle :=
  { handle with revision := change handle.revision }

/-- An outcome with another revision. -/
def Snapshot.rename (change : Nat → Nat) (snapshot : Snapshot α) : Snapshot α :=
  { snapshot with revision := change snapshot.revision }

/-- The revision of the parse that was found when a file was looked up. -/
def Cache.Lookup.revision : Lookup α → Nat
  | .ready snapshot => snapshot.revision
  | .inFlight handle => handle.revision

/-- What was looked up, with other revisions. -/
def Cache.Lookup.rename (change : Nat → Nat) : Lookup α → Lookup α
  | .ready snapshot => .ready (snapshot.rename change)
  | .inFlight handle => .inFlight (handle.rename change)

/-- An event with other revisions. -/
def Event.rename (change : Nat → Nat) : Event α → Event α
  | .called id revision call => .called id (change revision) call
  | .announced id revision uri outcome sent => .announced id (change revision) uri outcome sent

/-! ## Parsers that do not look at source roots -/

/-- Whether a parser does not look at the source roots that it is given. -/
def Oblivious (parser : Parser α) : Prop :=
  ∀ path text roots others, parser path text roots = parser path text others

/-- A file that cannot be read cannot be so whichever source roots are known. -/
theorem Parse.prepare_of_error {files : FileSystem} {roots : SourceRoots} {id : Identity}
    {text : Option String} {outcome : Outcome α}
    (prepared : prepare files roots id text = .error outcome)
    (others : SourceRoots) : prepare files others id text = .error outcome := by
  unfold prepare at prepared ⊢
  split at prepared
  · cases prepared
  · split at prepared
    · cases prepared
    · exact prepared

/-- The text for the parser is the same whichever source roots are known. -/
theorem Parse.prepare_of_ok {files : FileSystem} {roots : SourceRoots} {id : Identity}
    {text : Option String} {call : Call}
    (prepared : prepare files roots id text = (.ok call : Except (Outcome α) Call))
    (others : SourceRoots) :
    prepare files others id text = (.ok ⟨call.text, others⟩ : Except (Outcome α) Call) := by
  unfold prepare at prepared ⊢
  split at prepared
  · cases prepared
    rfl
  · split at prepared
    · cases prepared
      rfl
    · cases prepared

/-! ## Two caches that hold the same of a file -/

/-- A stage without the source roots that the parser was given. -/
def Stage.bare : Stage α → Stage α
  | .parsing uri call => .parsing uri ⟨call.text, []⟩
  | .orphaned call => .orphaned ⟨call.text, []⟩
  | .queued => .queued
  | .admitted => .admitted
  | .reading document => .reading document
  | .parsed uri outcome => .parsed uri outcome
  | .condemned => .condemned
  | .installed uri outcome => .installed uri outcome

/-- A stage in which no parser is running can be seen as it is. -/
theorem Stage.eq_of_bare {stage other : Stage α} (same : stage.bare = other.bare)
    (resting : other.isRunning = false) : stage = other := by
  cases other with
  | parsing | orphaned => cases resting
  | queued | admitted | reading | parsed | condemned | installed =>
    cases stage <;> simp_all [bare]

/-- Of a parser that is running the text can be seen. -/
theorem Stage.parsing_of_bare {stage : Stage α} {uri : Option Uri} {call : Call}
    (same : stage.bare = (Stage.parsing uri call).bare) :
    ∃ roots, stage = .parsing uri ⟨call.text, roots⟩ := by
  cases stage with
  | parsing other given =>
    simp only [bare, parsing.injEq, Call.mk.injEq] at same
    exact ⟨given.roots, by rw [same.1, ← same.2.1]⟩
  | queued | admitted | reading | parsed | condemned | installed | orphaned => cases same

/-- Whether a task has a worker can be seen. -/
theorem Stage.hasWorker_bare (stage : Stage α) : stage.bare.hasWorker = stage.hasWorker := by
  cases stage <;> rfl

/-- Whether somebody may wait for a task can be seen. -/
theorem Stage.isAwaited_bare (stage : Stage α) : stage.bare.isAwaited = stage.isAwaited := by
  cases stage <;> rfl

/-- A task with another revision, and without the source roots that its parser was given. -/
def Task.view (change : Nat → Nat) (task : Task α) : Task α :=
  ⟨task.id, change task.revision, task.stage.bare, task.aborted⟩

/-- Whether a task of the whole and one of its own are the same task of a file. -/
structure Task.Twins (file : Identity) (parses : List (Identity × Nat)) (task twin : Task α) :
    Prop where
  /-- The one is a task of the file. -/
  about : task.id = file
  /-- So is the other. -/
  same : twin.id = file
  /-- The revisions are those of one parse. -/
  named : twin.revision = rank file parses task.revision
  /-- That parse is known. -/
  parsed : (file, task.revision) ∈ parses
  /-- They have come as far. -/
  staged : twin.stage.bare = task.stage.bare

namespace Cache

/-- The tasks that parse a file. -/
def tasksOf (cache : Cache α) (file : Identity) : List (Task α) :=
  cache.tasks.filter fun task => task.id = file

/-- Whether a cache of its own holds of a file what the whole cache holds of it. The parses that
there will have been are known beforehand, so that revisions are renamed once and for all. -/
structure Mirrors (file : Identity) (parses : List (Identity × Nat)) (whole own : Cache α) :
    Prop where
  /-- The parses so far are among those that there will have been. -/
  known : ∀ parse ∈ whole.started, parse ∈ parses
  /-- So are those on their way. -/
  parsed : ∀ task ∈ whole.tasksOf file, (file, task.revision) ∈ parses
  /-- So is that of the entry. -/
  held : ∀ entry, whole.entries.get? file = some entry → (file, entry.revision) ∈ parses
  /-- The entry is the same. -/
  entry : own.entries.get? file =
    (whole.entries.get? file).map (Entry.rename (rank file parses))
  /-- The open document is the same. -/
  document : own.documents.get? file = whole.documents.get? file
  /-- The tasks are the same but for what their parsers were told of source roots. -/
  tasks : own.tasks.map (Task.view id) = (whole.tasksOf file).map (Task.view (rank file parses))
  /-- The youngest parse is the same. -/
  last : own.lastRevision = rank file parses whole.lastRevision
  /-- Parses may be started. -/
  accepting : own.accepting = true
  /-- Tasks may get a worker. -/
  admitting : own.admitting = true
  /-- The same tasks are done with their entries. -/
  finished : own.finished =
    (whole.finished.filter fun revision => (file, revision) ∈ parses).map (rank file parses)
  /-- The client was told the same. -/
  pushes : own.pushes file = (whole.pushes file).map (Event.rename (rank file parses))

/-- Moving a task moves it among those of its file. -/
theorem tasksOf_moveTask (cache : Cache α) (file : Identity) (revision : Nat) (stage : Stage α) :
    (cache.moveTask revision stage).tasksOf file = (cache.tasksOf file).map fun task =>
      if task.revision = revision then { task with stage := stage } else task := by
  unfold tasksOf moveTask
  rw [List.filter_map]
  congr 1
  refine List.filter_congr fun task _ => ?_
  rw [Function.comp_apply]
  split_ifs <;> rfl

/-- Dropping a task drops it among those of its file. -/
theorem tasksOf_dropTask (cache : Cache α) (file : Identity) (revision : Nat) :
    (cache.dropTask revision).tasksOf file =
      (cache.tasksOf file).filter fun task => task.revision ≠ revision := by
  unfold tasksOf dropTask
  rw [List.filter_filter, List.filter_filter]
  refine List.filter_congr fun task _ => Bool.and_comm _ _

/-- Starting a parse adds a task to those of its file. -/
theorem tasksOf_schedule (cache : Cache α) (file id : Identity) :
    (cache.schedule id).tasksOf file = cache.tasksOf file ++
      if id = file then [⟨id, cache.lastRevision + 1, .queued, false⟩] else [] := by
  unfold tasksOf schedule
  rw [List.filter_append, List.filter_singleton, Bool.cond_decide]

/-- What a task does that finds its mark, as long as parses may be started. -/
theorem store_of_mark {cache : Cache α} {task : Task α} {uri : Option Uri} {outcome : Outcome α}
    {dirty closed : Bool} (accepting : cache.accepting = true)
    (stage : task.stage = .parsed uri outcome)
    (entry : cache.entries.get? task.id = some (.pending task.revision dirty closed)) :
    cache.store task = some (
      if closed then cache.moveTask task.revision .condemned
      else if dirty then (cache.schedule task.id).retire task
      else cache.install task uri outcome) := by
  simp only [store, stage, entry, ne_eq, not_true_eq_false, if_false, start, accepting, if_true]
  cases closed <;> cases dirty <;> rfl

namespace Mirrors

variable {file : Identity} {parses : List (Identity × Nat)} {whole own : Cache α}
  {task twin : Task α}

/-- At the start all is the same. -/
theorem empty (positive : ∀ parse ∈ parses, 0 < parse.2) :
    Mirrors file parses (Cache.empty : Cache α) Cache.empty := by
  have none : rank file parses 0 = 0 := by
    refine List.countP_eq_zero.mpr fun parse member counted => ?_
    have above := positive parse member
    rw [decide_eq_true_eq] at counted
    omega
  exact ⟨nofun, nofun, nofun, rfl, rfl, rfl, none.symm, rfl, rfl, rfl, rfl⟩

/-- A task of the file has a twin. -/
theorem exists_twin (mirrors : Mirrors file parses whole own) (member : task ∈ whole.tasks)
    (about : task.id = file) : ∃ twin ∈ own.tasks, Task.Twins file parses task twin := by
  have found : task ∈ whole.tasksOf file := List.mem_filter.mpr ⟨member, decide_eq_true about⟩
  have viewed : task.view (rank file parses) ∈ own.tasks.map (Task.view id) := by
    rw [mirrors.tasks]
    exact List.mem_map_of_mem found
  obtain ⟨twin, twinned, seen⟩ := List.mem_map.mp viewed
  simp only [Task.view, Task.mk.injEq, id_eq] at seen
  obtain ⟨same, named, staged, -⟩ := seen
  exact ⟨twin, twinned, about, same.trans about, named, mirrors.parsed task found, staged⟩

/-- A task of its own is the twin of one. -/
theorem exists_task (mirrors : Mirrors file parses whole own) (twinned : twin ∈ own.tasks) :
    ∃ task ∈ whole.tasks, Task.Twins file parses task twin := by
  have viewed : twin.view id ∈ (whole.tasksOf file).map (Task.view (rank file parses)) := by
    rw [← mirrors.tasks]
    exact List.mem_map_of_mem twinned
  obtain ⟨task, found, seen⟩ := List.mem_map.mp viewed
  obtain ⟨member, about⟩ := List.mem_filter.mp found
  simp only [Task.view, Task.mk.injEq, id_eq] at seen
  obtain ⟨same, named, staged, -⟩ := seen
  have mine : task.id = file := of_decide_eq_true about
  exact ⟨task, member, mine, same ▸ mine, named.symm, mirrors.parsed task found, staged.symm⟩

/-! ### What is done to the file in both -/

section

variable (mirrors : Mirrors file parses whole own)

include mirrors

/-- A task of the file takes another stage. -/
theorem tasks_moveTask {revision : Nat} (parsed : (file, revision) ∈ parses)
    {stage stage' : Stage α} (same : stage'.bare = stage.bare) :
    (own.moveTask (rank file parses revision) stage').tasks.map (Task.view id) =
      ((whole.moveTask revision stage).tasksOf file).map (Task.view (rank file parses)) := by
  -- What happens to a task can be told from its view alone, and in the same way in both caches:
  -- no other task of the file has that rank.
  let change (task : Task α) : Task α :=
    if task.revision = rank file parses revision then { task with stage := stage.bare } else task
  have after (task : Task α) : (if task.revision = rank file parses revision
      then { task with stage := stage' } else task).view id = change (task.view id) := by
    change Task.view id _ = if task.revision = rank file parses revision then _ else _
    split_ifs
    · rw [Task.view, Task.view, ← same]
    · rfl
  have before (task : Task α) (member : task ∈ whole.tasksOf file) :
      (if task.revision = revision then { task with stage := stage } else task).view
        (rank file parses) = change (task.view (rank file parses)) := by
    have named : rank file parses task.revision = rank file parses revision ↔
        task.revision = revision :=
      ⟨eq_of_rank (mirrors.parsed task member) parsed, congrArg _⟩
    change Task.view _ _ =
      if rank file parses task.revision = rank file parses revision then _ else _
    simp only [named]
    split_ifs <;> rfl
  calc (own.moveTask (rank file parses revision) stage').tasks.map (Task.view id)
      = (own.tasks.map (Task.view id)).map change := by
        rw [moveTask, List.map_map, List.map_map]
        exact List.map_congr_left fun task _ => after task
    _ = ((whole.tasksOf file).map (Task.view (rank file parses))).map change := by
        rw [mirrors.tasks]
    _ = ((whole.moveTask revision stage).tasksOf file).map (Task.view (rank file parses)) := by
        rw [tasksOf_moveTask, List.map_map, List.map_map]
        exact List.map_congr_left fun task member => (before task member).symm

/-- A task of the file is dropped. -/
theorem tasks_dropTask {revision : Nat} (parsed : (file, revision) ∈ parses) :
    (own.dropTask (rank file parses revision)).tasks.map (Task.view id) =
      ((whole.dropTask revision).tasksOf file).map (Task.view (rank file parses)) := by
  let kept (task : Task α) : Bool := task.revision ≠ rank file parses revision
  have before (task : Task α) (member : task ∈ whole.tasksOf file) :
      decide (task.revision ≠ revision) = kept (task.view (rank file parses)) := by
    refine decide_eq_decide.mpr (not_congr ⟨congrArg (rank file parses), ?_⟩)
    exact eq_of_rank (mirrors.parsed task member) parsed
  calc (own.dropTask (rank file parses revision)).tasks.map (Task.view id)
      = (own.tasks.map (Task.view id)).filter kept := by
        rw [List.filter_map]
        rfl
    _ = ((whole.tasksOf file).map (Task.view (rank file parses))).filter kept := by
        rw [mirrors.tasks]
    _ = ((whole.dropTask revision).tasksOf file).map (Task.view (rank file parses)) := by
        rw [tasksOf_dropTask, List.filter_map]
        exact congrArg _ (List.filter_congr fun task member => (before task member).symm)

/-- A task of the file takes another stage. -/
theorem moveTask {revision : Nat} (parsed : (file, revision) ∈ parses) {stage stage' : Stage α}
    (same : stage'.bare = stage.bare) :
    Mirrors file parses (whole.moveTask revision stage)
      (own.moveTask (rank file parses revision) stage') := by
  refine { mirrors with parsed := ?_, tasks := mirrors.tasks_moveTask parsed same }
  intro task member
  rw [tasksOf_moveTask] at member
  obtain ⟨before, found, rfl⟩ := List.mem_map.mp member
  have still := mirrors.parsed before found
  split_ifs <;> exact still

/-- A task of the file is dropped. -/
theorem dropTask {revision : Nat} (parsed : (file, revision) ∈ parses) :
    Mirrors file parses (whole.dropTask revision)
      (own.dropTask (rank file parses revision)) := by
  refine { mirrors with parsed := ?_, tasks := mirrors.tasks_dropTask parsed }
  intro task member
  rw [tasksOf_dropTask] at member
  exact mirrors.parsed task (List.mem_filter.mp member).1

/-- A task of the file is done with its entry. -/
theorem finishTask {revision : Nat} (parsed : (file, revision) ∈ parses) :
    Mirrors file parses (whole.finishTask revision)
      (own.finishTask (rank file parses revision)) := by
  refine { mirrors with finished := ?_ }
  simp only [Cache.finishTask, mirrors.finished, List.filter_cons, parsed, decide_true, if_true,
    List.map_cons]

/-- The entry of the file is another one. -/
theorem setEntry {entry : Entry α} (parsed : (file, entry.revision) ∈ parses) :
    Mirrors file parses { whole with entries := whole.entries.insert file entry }
      { own with entries := own.entries.insert file (entry.rename (rank file parses)) } := by
  refine { mirrors with held := fun other found => ?_, entry := ?_ }
  · rw [Table.get?_insert, if_pos rfl] at found
    cases found
    exact parsed
  · rw [Table.get?_insert, Table.get?_insert, if_pos rfl, if_pos rfl, Option.map_some]

/-- The entry of the file goes. -/
theorem eraseEntry :
    Mirrors file parses { whole with entries := whole.entries.erase file }
      { own with entries := own.entries.erase file } := by
  refine { mirrors with held := fun other found => ?_, entry := ?_ }
  · rw [Table.get?_erase, if_pos rfl] at found
    cases found
  · rw [Table.get?_erase, Table.get?_erase, if_pos rfl, if_pos rfl, Option.map_none]

/-- Source roots do not matter. -/
theorem learn (roots roots' : SourceRoots) :
    Mirrors file parses { whole with roots := roots } { own with roots := roots' } :=
  { mirrors with }

/-- The parser of a task is started. -/
theorem called (id id' : Identity) (revision revision' : Nat) (call call' : Call) :
    Mirrors file parses (whole.report (.called id revision call))
      (own.report (.called id' revision' call')) := by
  refine { mirrors with pushes := ?_ }
  rw [pushes_called, pushes_called, mirrors.pushes]

/-- The client is told of an outcome of the file. -/
theorem announced (revision : Nat) (uri : Option Uri) (outcome : Outcome α)
    (sent : List Notification) :
    Mirrors file parses (whole.report (.announced file revision uri outcome sent))
      (own.report (.announced file (rank file parses revision) uri outcome sent)) := by
  refine { mirrors with pushes := ?_ }
  have added (cache : Cache α) (number : Nat) :
      (cache.report (.announced file number uri outcome sent)).pushes file =
        cache.pushes file ++ [.announced file number uri outcome sent] := by
    simp [Cache.pushes, report, Event.isPushOf]
  rw [added, added, mirrors.pushes, List.map_append]
  rfl

/-- A text is recorded for the file. -/
theorem recordDocument (document : Document) :
    Mirrors file parses (whole.recordDocument file document).1
        (own.recordDocument file document).1 ∧
      (own.recordDocument file document).2 = (whole.recordDocument file document).2 := by
  refine ⟨{ mirrors with document := ?_ }, ?_⟩
  · rw [get?_recordDocument, get?_recordDocument, if_pos rfl, if_pos rfl]
  · rw [Cache.recordDocument, mirrors.document]
    rfl

/-- The text of the file is forgotten. -/
theorem forgetDocument :
    Mirrors file parses (whole.forgetDocument file) (own.forgetDocument file) := by
  refine { mirrors with document := ?_ }
  rw [get?_forgetDocument, get?_forgetDocument, if_pos rfl, if_pos rfl]

/-- A parse of the file is started. -/
theorem schedule (rising : parses.Pairwise fun earlier later => earlier.2 < later.2)
    (known : ∀ parse ∈ (whole.schedule file).started, parse ∈ parses) :
    Mirrors file parses (whole.schedule file) (own.schedule file) := by
  have parsed : (file, whole.lastRevision + 1) ∈ parses :=
    known _ (List.mem_append_right _ (List.mem_singleton.mpr rfl))
  -- The revision is the next one in both, whatever numbers other files have used up.
  have next : own.lastRevision + 1 = rank file parses (whole.lastRevision + 1) := by
    rw [rank_succ_of_mem rising parsed, mirrors.last]
  refine { mirrors with
    known := known, parsed := ?_, held := fun entry found => ?_, entry := ?_, tasks := ?_,
    last := next }
  · intro task member
    rw [tasksOf_schedule, if_pos rfl] at member
    rcases List.mem_append.mp member with member | member
    · exact mirrors.parsed task member
    · rw [List.mem_singleton.mp member]
      exact parsed
  · rw [get?_schedule, if_pos rfl] at found
    cases found
    exact parsed
  · rw [get?_schedule, get?_schedule, if_pos rfl, if_pos rfl, next, Option.map_some]
    rfl
  · rw [tasksOf_schedule, if_pos rfl, List.map_append, ← mirrors.tasks, Cache.schedule,
      List.map_append, next]
    rfl

/-- The entry of the file is told of a text. -/
theorem reviseEntry (unchanged : Bool) :
    Mirrors file parses (whole.reviseEntry file unchanged).1 (own.reviseEntry file unchanged).1 ∧
      (own.reviseEntry file unchanged).2 =
        (whole.reviseEntry file unchanged).2.map (Handle.rename (rank file parses)) := by
  have same := mirrors.entry
  cases entry : whole.entries.get? file with
  | none =>
    rw [entry, Option.map_none] at same
    simp only [Cache.reviseEntry, entry, same]
    exact ⟨mirrors, rfl⟩
  | some held =>
    cases held with
    | pending revision dirty closed =>
      rw [entry, Option.map_some, Entry.rename] at same
      simp only [Cache.reviseEntry, entry, same]
      have parsed : (file, revision) ∈ parses := mirrors.held _ entry
      exact ⟨mirrors.setEntry parsed, rfl⟩
    | ready revision outcome =>
      rw [entry, Option.map_some, Entry.rename] at same
      simp only [Cache.reviseEntry, entry, same]
      refine ⟨mirrors, ?_⟩
      cases unchanged <;> rfl

/-- The outcome of the file is dropped. -/
theorem evict : Mirrors file parses (whole.evict file) (own.evict file) := by
  have same := mirrors.entry
  cases entry : whole.entries.get? file with
  | none =>
    rw [entry, Option.map_none] at same
    simp only [Cache.evict, entry, same]
    exact mirrors
  | some held =>
    cases held with
    | pending revision dirty closed =>
      rw [entry, Option.map_some, Entry.rename] at same
      simp only [Cache.evict, entry, same]
      have parsed : (file, revision) ∈ parses := mirrors.held _ entry
      exact mirrors.setEntry parsed
    | ready revision outcome =>
      rw [entry, Option.map_some, Entry.rename] at same
      simp only [Cache.evict, entry, same]
      exact mirrors.eraseEntry

section

variable (rising : parses.Pairwise fun earlier later => earlier.2 < later.2)
  (accepting : whole.accepting = true)

include rising accepting

/-- A parse of the file is started, as long as parses may be. -/
theorem start (known : ∀ parse ∈ (whole.start file).1.started, parse ∈ parses) :
    Mirrors file parses (whole.start file).1 (own.start file).1 ∧
      ∃ handle, (whole.start file).2 = .ok handle ∧
        (own.start file).2 = .ok (handle.rename (rank file parses)) ∧
        (file, handle.revision) ∈ parses := by
  rw [Cache.start, if_pos accepting] at known ⊢
  have scheduled := mirrors.schedule rising known
  rw [Cache.start, if_pos mirrors.accepting]
  have next : own.lastRevision + 1 = rank file parses (whole.lastRevision + 1) := scheduled.last
  have parsed : (file, whole.lastRevision + 1) ∈ parses :=
    known _ (List.mem_append_right _ (List.mem_singleton.mpr rfl))
  refine ⟨scheduled, _, rfl, ?_, parsed⟩
  simp only [Handle.rename, next]

/-- A parse of the file is asked for. -/
theorem requestParse (known : ∀ parse ∈ (whole.requestParse file).1.started, parse ∈ parses) :
    Mirrors file parses (whole.requestParse file).1 (own.requestParse file).1 := by
  have same := mirrors.entry
  cases entry : whole.entries.get? file with
  | none =>
    rw [entry, Option.map_none] at same
    simp only [Cache.requestParse, entry, same] at known ⊢
    exact (mirrors.start rising accepting known).1
  | some held =>
    cases held with
    | pending revision dirty closed =>
      rw [entry, Option.map_some, Entry.rename] at same
      simp only [Cache.requestParse, entry, same]
      exact mirrors
    | ready revision outcome =>
      rw [entry, Option.map_some, Entry.rename] at same
      simp only [Cache.requestParse, entry, same] at known ⊢
      exact (mirrors.start rising accepting known).1

/-- The text of a document of the file is recorded and parsed. -/
theorem updateDocument {document : Document}
    (known : ∀ parse ∈ (whole.updateDocument file document).1.started, parse ∈ parses) :
    Mirrors file parses (whole.updateDocument file document).1
      (own.updateDocument file document).1 := by
  -- The text is recorded, the entry is told of it, and a parse is asked for if there is none to
  -- join. Each part does the same in both and hands on the same.
  obtain ⟨recorded, same⟩ := mirrors.recordDocument document
  have accepting' : (whole.recordDocument file document).1.accepting = true := accepting
  unfold Cache.updateDocument at known ⊢
  generalize whole.recordDocument file document = record at recorded same accepting' known ⊢
  generalize own.recordDocument file document = record' at recorded same ⊢
  obtain ⟨noted, _⟩ := record
  obtain ⟨noted', unchanged⟩ := record'
  subst same
  obtain ⟨revised, handed⟩ := recorded.reviseEntry unchanged
  have still : (noted.reviseEntry file unchanged).1.accepting = true := by
    unfold Cache.reviseEntry
    split <;> exact accepting'
  dsimp only at known ⊢
  generalize noted.reviseEntry file unchanged = revision at known revised handed still ⊢
  generalize noted'.reviseEntry file unchanged = revision' at revised handed ⊢
  obtain ⟨told, handle⟩ := revision
  obtain ⟨told', handle'⟩ := revision'
  subst handed
  cases handle with
  | none => exact revised.requestParse rising still known
  | some handle => exact revised

/-- The file is looked up. -/
theorem lookup (known : ∀ parse ∈ (whole.lookup file).1.started, parse ∈ parses) :
    Mirrors file parses (whole.lookup file).1 (own.lookup file).1 ∧
      ∃ found, (whole.lookup file).2 = .ok found ∧
        (own.lookup file).2 = .ok (found.rename (rank file parses)) ∧
        (file, found.revision) ∈ parses := by
  have same := mirrors.entry
  cases entry : whole.entries.get? file with
  | none =>
    rw [entry, Option.map_none] at same
    simp only [Cache.lookup, entry, same] at known ⊢
    obtain ⟨started, handle, given, renamed, parsed⟩ := mirrors.start rising accepting known
    refine ⟨started, .inFlight handle, ?_, ?_, parsed⟩
    · rw [given]
      rfl
    · rw [renamed]
      rfl
  | some held =>
    have parsed := mirrors.held held entry
    cases held with
    | pending revision dirty closed =>
      rw [entry, Option.map_some, Entry.rename] at same
      simp only [Cache.lookup, entry, same]
      exact ⟨mirrors, .inFlight ⟨file, revision, false⟩, rfl, rfl, parsed⟩
    | ready revision outcome =>
      rw [entry, Option.map_some, Entry.rename] at same
      simp only [Cache.lookup, entry, same]
      exact ⟨mirrors, .ready ⟨revision, outcome⟩, rfl, rfl, parsed⟩

end

/-- A document of the file is closed. -/
theorem closeDocument (evicting : Bool) :
    Mirrors file parses (whole.closeDocument evicting file) (own.closeDocument evicting file) := by
  unfold Cache.closeDocument
  cases evicting with
  | true => exact mirrors.forgetDocument.evict
  | false => exact mirrors.forgetDocument

/-- A worker that is free in the whole is free for the file by itself. -/
theorem busy_le : own.busy ≤ whole.busy := by
  -- Workers can be counted in what is seen of tasks.
  have seen (change : Nat → Nat) (tasks : List (Task α)) :
      (tasks.map (Task.view change)).countP (fun task => task.stage.hasWorker) =
        tasks.countP fun task => task.stage.hasWorker := by
    rw [List.countP_map]
    exact List.countP_congr fun task _ => by
      rw [Function.comp_apply, Task.view, Stage.hasWorker_bare]
  calc own.busy
      = own.tasks.countP fun task => task.stage.hasWorker := own.busy_eq_countP
    _ = (whole.tasksOf file).countP fun task => task.stage.hasWorker := by
        rw [← seen id, mirrors.tasks, seen]
    _ ≤ whole.tasks.countP fun task => task.stage.hasWorker :=
        List.filter_sublist.countP_le
    _ = whole.busy := whole.busy_eq_countP.symm

/-- Whoever waits for a parse of the file hears the same. -/
theorem progress (rising : parses.Pairwise fun earlier later => earlier.2 < later.2)
    (registered : ∀ task ∈ whole.tasks, (task.id, task.revision) ∈ whole.started)
    {handle : Handle} (parsed : (file, handle.revision) ∈ parses) :
    own.progress (handle.rename (rank file parses)) = whole.progress handle := by
  have done : own.finished.contains (handle.rename (rank file parses)).revision =
      whole.finished.contains handle.revision := by
    rw [Bool.eq_iff_iff, List.contains_iff_mem, List.contains_iff_mem, mirrors.finished]
    constructor
    · intro member
      obtain ⟨revision, found, same⟩ := List.mem_map.mp member
      obtain ⟨found, among⟩ := List.mem_filter.mp found
      rwa [← eq_of_rank (of_decide_eq_true among) parsed same]
    · intro member
      exact List.mem_map_of_mem (List.mem_filter.mpr ⟨member, decide_eq_true parsed⟩)
  have awaited : (own.tasks.any fun task =>
        task.revision == (handle.rename (rank file parses)).revision && task.stage.isAwaited) =
      whole.tasks.any fun task => task.revision == handle.revision && task.stage.isAwaited := by
    rw [Bool.eq_iff_iff]
    simp only [List.any_eq_true, Bool.and_eq_true, beq_iff_eq]
    constructor
    · -- Ranks keep parses of the file apart, so the task awaited here is the one awaited there.
      rintro ⟨twin, twinned, same, awaited⟩
      obtain ⟨task, member, twins⟩ := mirrors.exists_task twinned
      refine ⟨task, member, eq_of_rank twins.parsed parsed (twins.named.symm.trans same), ?_⟩
      rwa [← Stage.isAwaited_bare, ← twins.staged, Stage.isAwaited_bare]
    · rintro ⟨task, member, same, awaited⟩
      -- A task of that revision can only be one of the file.
      have started := mirrors.known _ (registered task member)
      rw [same] at started
      obtain ⟨twin, twinned, twins⟩ :=
        mirrors.exists_twin member (eq_of_rising rising started parsed)
      refine ⟨twin, twinned, twins.named.trans (by rw [same]; rfl), ?_⟩
      rwa [← Stage.isAwaited_bare, twins.staged, Stage.isAwaited_bare]
  unfold Cache.progress
  rw [done, awaited]
  rfl

/-- A task of the file ends without leaving its outcome. -/
theorem retire (twins : Task.Twins file parses task twin) :
    Mirrors file parses (whole.retire task) (own.retire twin) := by
  rw [Cache.retire, Cache.retire, twins.named]
  exact (mirrors.finishTask twins.parsed).dropTask twins.parsed

/-- A task of the file stores its outcome. -/
theorem install (twins : Task.Twins file parses task twin) (uri : Option Uri)
    (outcome : Outcome α) :
    Mirrors file parses (whole.install task uri outcome) (own.install twin uri outcome) := by
  rw [Cache.install, Cache.install, twins.named, twins.about, twins.same]
  have stored : Mirrors file parses
      { whole with entries := whole.entries.insert file (.ready task.revision outcome) } _ :=
    mirrors.setEntry twins.parsed
  exact (stored.finishTask twins.parsed).moveTask twins.parsed rfl

/-- A task of the file that reads its text finds the same, and starts its parser or does not. -/
theorem launch {env : Environment α} {next : Cache α} (twins : Task.Twins file parses task twin)
    (taken : TaskStep env whole task .launch next) :
    ∃ after, own.launch env twin = some after ∧ Mirrors file parses next after := by
  have staged := twins.staged
  cases taken with
  | @unreadable document outcome stage prepared =>
    rw [stage] at staged
    have reading := Stage.eq_of_bare staged rfl
    have unread := Parse.prepare_of_error prepared own.roots
    rw [twins.about, ← twins.same] at unread
    refine ⟨own.moveTask twin.revision (.parsed (document.map Document.uri) outcome), ?_, ?_⟩
    · simp only [Cache.launch, reading, unread]
    · rw [twins.named]
      exact mirrors.moveTask twins.parsed rfl
  | @launched document call stage prepared =>
    rw [stage] at staged
    have reading := Stage.eq_of_bare staged rfl
    have ready := Parse.prepare_of_ok prepared own.roots
    rw [twins.about, ← twins.same] at ready
    let given : Call := ⟨call.text, own.roots⟩
    have moved : Mirrors file parses
        (whole.moveTask task.revision (.parsing (document.map Document.uri) call))
        (own.moveTask (rank file parses task.revision)
          (.parsing (document.map Document.uri) given)) := mirrors.moveTask twins.parsed rfl
    refine ⟨(own.moveTask twin.revision (.parsing (document.map Document.uri) given)).report
      (.called twin.id twin.revision given), ?_, ?_⟩
    · simp only [Cache.launch, reading, ready, given]
    · rw [twins.named]
      exact moved.called _ _ _ _ _ _

/-- The parser of a task of the file ends with the same outcome. -/
theorem complete {env : Environment α} (oblivious : Oblivious env.parser)
    (twins : Task.Twins file parses task twin) {uri : Option Uri} {call : Call}
    (stage : task.stage = .parsing uri call) (roots : SourceRoots) :
    ∃ after, own.complete env twin = some after ∧
      Mirrors file parses
        ({ whole with roots := roots }.moveTask task.revision
          (.parsed uri (Parse.run env.parser task.id call))) after := by
  have staged := twins.staged
  rw [stage] at staged
  obtain ⟨others, running⟩ := Stage.parsing_of_bare staged
  -- The twin's parser was given other roots, and does not look at them.
  let outcome : Outcome α := Parse.run env.parser twin.id ⟨call.text, others⟩
  have made : outcome = Parse.run env.parser task.id call := by
    change Parse.run env.parser twin.id ⟨call.text, others⟩ = _
    rw [Parse.run, Parse.run, twins.same, twins.about, oblivious _ call.text others call.roots]
  let learned : Cache α := { own with roots := own.roots.registerAll outcome.revealed }
  refine ⟨learned.moveTask twin.revision (.parsed uri outcome), ?_, ?_⟩
  · simp only [Cache.complete, running, learned, outcome]
  · rw [twins.named, made]
    exact (mirrors.learn roots learned.roots).moveTask twins.parsed rfl

/-- A task of the file that comes to store its outcome does the same with it. As long as parses may
be started, it finds its mark. -/
theorem store {env : Environment α} {next : Cache α}
    (rising : parses.Pairwise fun earlier later => earlier.2 < later.2)
    (accepting : whole.accepting = true) (twins : Task.Twins file parses task twin)
    {dirty closed : Bool}
    (entry : whole.entries.get? task.id = some (.pending task.revision dirty closed))
    (twinned : own.entries.get? twin.id = some (.pending twin.revision dirty closed))
    (taken : TaskStep env whole task .store next)
    (known : ∀ parse ∈ next.started, parse ∈ parses) :
    ∃ after, own.store twin = some after ∧ Mirrors file parses next after := by
  have staged := twins.staged
  cases taken with
  | rejected stage foreign => exact absurd entry (foreign dirty closed)
  | @condemned uri outcome soiled stage found =>
    cases entry.symm.trans found
    rw [stage] at staged
    refine ⟨_, store_of_mark mirrors.accepting (Stage.eq_of_bare staged rfl) twinned, ?_⟩
    rw [if_pos rfl, twins.named]
    exact mirrors.moveTask twins.parsed rfl
  | superseded stage found =>
    cases entry.symm.trans found
    rw [stage] at staged
    refine ⟨_, store_of_mark mirrors.accepting (Stage.eq_of_bare staged rfl) twinned, ?_⟩
    rw [if_neg Bool.false_ne_true, if_pos rfl, twins.same, twins.about]
    rw [twins.about] at known
    exact (mirrors.schedule rising known).retire twins
  | @installed uri outcome stage replaced =>
    rw [stage] at staged
    refine ⟨_, store_of_mark mirrors.accepting (Stage.eq_of_bare staged rfl) twinned, ?_⟩
    -- The mark is neither dirty nor closed, or the outcome would not have been stored.
    rcases replaced with ⟨soiled, found, late⟩ | ⟨older, held, found, -⟩
    · cases entry.symm.trans found
      have clean : dirty = false := by
        cases dirty with
        | false => rfl
        | true => cases accepting.symm.trans (late rfl)
      rw [if_neg Bool.false_ne_true, clean, if_neg Bool.false_ne_true]
      exact mirrors.install twins uri outcome
    · cases entry.symm.trans found

/-- Whatever a task of the file does, its twin does too. -/
theorem move {env : Environment α} {step : Move} {next : Cache α} (oblivious : Oblivious env.parser)
    (rising : parses.Pairwise fun earlier later => earlier.2 < later.2)
    (coherent : whole.Coherent) (accepting : whole.accepting = true)
    (admitting : whole.admitting = true) (member : task ∈ whole.tasks)
    (twins : Task.Twins file parses task twin) (taken : TaskStep env whole task step next)
    (known : ∀ parse ∈ next.started, parse ∈ parses) :
    ∃ after, step.apply env own twin = some after ∧ Mirrors file parses next after := by
  have alive : task.aborted = false := coherent.unstopped accepting task member
  have staged := twins.staged
  -- As long as parses may be started, a task finds its mark until it has settled its entry.
  have marked (unsettled : task.stage.isUnsettled = true) : ∃ dirty closed,
      whole.entries.get? task.id = some (.pending task.revision dirty closed) ∧
      own.entries.get? twin.id = some (.pending twin.revision dirty closed) := by
    obtain ⟨dirty, closed, entry⟩ := coherent.holds task member unsettled alive
    refine ⟨dirty, closed, entry, ?_⟩
    rw [twins.about] at entry
    rw [twins.same, twins.named, mirrors.entry, entry]
    rfl
  have stored (unsettled : task.stage.isUnsettled = true)
      (taken : TaskStep env whole task .store next) :
      ∃ after, own.store twin = some after ∧ Mirrors file parses next after := by
    obtain ⟨dirty, closed, entry, twinned⟩ := marked unsettled
    exact mirrors.store rising accepting twins entry twinned taken known
  have done := taken
  cases taken with
  | admitted stage _ free =>
    rw [stage] at staged
    have waiting := Stage.eq_of_bare staged rfl
    have room : own.busy < env.workers := Nat.lt_of_le_of_lt mirrors.busy_le free
    refine ⟨own.moveTask twin.revision .admitted, ?_, ?_⟩
    · simp only [Move.apply, assignWorker, waiting, mirrors.admitting, room, decide_true,
        Bool.and_self, if_true]
    · rw [twins.named]
      exact mirrors.moveTask twins.parsed rfl
  | read stage =>
    rw [stage] at staged
    have admitted := Stage.eq_of_bare staged rfl
    refine ⟨own.moveTask twin.revision (.reading (own.documents.get? twin.id)), ?_, ?_⟩
    · simp only [Move.apply, readDocument, admitted]
    · rw [twins.named, twins.same, mirrors.document, twins.about]
      exact mirrors.moveTask twins.parsed rfl
  | unreadable | launched => exact mirrors.launch twins done
  | completed roots stage => exact mirrors.complete oblivious twins stage roots
  | lost _ stage =>
    -- A parser is left behind only by a task that was told to stop.
    have awaited := coherent.awaited task member alive
    rw [stage] at awaited
    cases awaited
  | rejected stage | condemned stage | superseded stage | installed stage =>
    exact stored (by rw [stage]; rfl) done
  | discarded stage =>
    obtain ⟨dirty, closed, entry, twinned⟩ := marked (by rw [stage]; rfl)
    rw [stage] at staged
    have condemned := Stage.eq_of_bare staged rfl
    refine ⟨(own.discardPending twin.id twin.revision).retire twin, ?_, ?_⟩
    · simp only [Move.apply, discard, condemned]
    · rw [discardPending_of_mark entry, discardPending_of_mark twinned, twins.about, twins.same]
      exact mirrors.eraseEntry.retire twins
  | @published uri outcome stage =>
    rw [stage] at staged
    have installed := Stage.eq_of_bare staged rfl
    refine ⟨(own.report (.announced twin.id twin.revision uri outcome
      (Notification.announce env.files env.options twin.id uri outcome))).dropTask twin.revision,
      ?_, ?_⟩
    · simp only [Move.apply, publish, installed]
    · rw [twins.named, twins.same, twins.about]
      exact (mirrors.announced task.revision uri outcome _).dropTask twins.parsed
  | refused _ ended => cases admitting.symm.trans ended
  | stopped aborted | orphaned aborted => cases alive.symm.trans aborted

end

end Mirrors

end Cache

end DiagnosticServer
