import Mathlib.Algebra.GroupWithZero.Nat
import DiagnosticServer.Proofs.Cache.Account
import DiagnosticServer.Proofs.Cache.Freshness
import DiagnosticServer.Proofs.Cache.Reopening

/-!
# The work comes to an end

A task may start another parse of its file as its last step, so it is not plain that the work ever
comes to an end once the clients are silent. What carries it is that a parse is started again only
where its mark is dirty, and the mark of the new one is not. `Leaves` says which tasks a step leaves
of a task, and every weight that is given to parses changes with a step as those tasks say. One such
weight counts the steps that are left, and falls with every step (`Coherent.effort_lt`). Another one
counts the starts of the parser that are left; in a calm cache, where `Becomes` says what a step
makes of a parse, it falls exactly when a parser is started (`Calm.due_eq`).
-/

namespace DiagnosticServer

variable {α : Type}

open Cache

/-! ## Calls and stores that are not divided -/

/-- Whether an action goes on with a call that has begun. -/
def Action.goesOn : Action → Bool
  | proceed _ | sweep _ _ => true
  | edit _ | update _ _ | close _ | request _ | look _ | shutdown | move _ _ => false

/-- The revision of the task that drops the entry of a closed document, if that is the action. -/
def Action.discarding? : Action → Option Nat
  | move revision .discard => some revision
  | _ => none

/-- Whether nothing ever happens between the steps of a call, nor between the steps in which a task
sees that its document was closed and drops its entry. -/
def Undivided (trail : List (World α × Action)) : Prop :=
  ∀ moment ∈ trail, (moment.1.calls ≠ [] → moment.2.goesOn = true) ∧
    ∀ task ∈ moment.1.cache.tasks, task.stage = .condemned →
      moment.2.discarding? = some task.revision

instance (trail : List (World α × Action)) : Decidable (Undivided trail) :=
  inferInstanceAs (Decidable (∀ moment ∈ trail, (moment.1.calls ≠ [] → moment.2.goesOn = true) ∧
    ∀ task ∈ moment.1.cache.tasks, task.stage = .condemned →
      moment.2.discarding? = some task.revision))

section

variable {env : Environment α} {world next : World α} {trail : List (World α × Action)}
  {action : Action}

/-- Calls that are not divided follow each other. -/
theorem Undivided.serial (undivided : Undivided trail) : Serial trail := by
  rintro ⟨past, action⟩ passed begins
  by_contra half
  have goesOn := (undivided _ passed).1 half
  cases action with
  | proceed | sweep => cases begins
  | edit | update | close | request | look | shutdown | move => cases goesOn

/-- Where stores are not divided, no parse is told of a text after its task has seen the document
closed. -/
theorem Undivided.sober (undivided : Undivided trail) :
    ∀ moment ∈ trail, ¬ Revives moment.1 moment.2 := by
  rintro ⟨past, action⟩ passed revives
  match action, revives with
  | .proceed (.revise _ _), ⟨task, member, _, stage⟩ =>
    have discards := (undivided _ passed).2 task member stage
    cases discards

/-! ## Marks and finished tasks -/

/-- While calls follow each other, no mark is dirty and closed: closing a document makes it clean,
and a text that is recorded opens it. -/
theorem Run.unmixed (run : Run env world trail) (serial : Serial trail)
    (accepting : world.cache.accepting = true) (id : Identity) (revision : Nat) :
    world.cache.entries.get? id ≠ some (.pending revision true true) := by
  refine run.live_induction
    (motive := fun world _ => world.cache.entries.get? id ≠ some (.pending revision true true))
    serial accepting (fun _ => nofun) ?_
  intro world next trail action run serial accepting turn taken unmixed
  cases taken with
  | @task task move cache member taken =>
    change cache.entries.get? id ≠ _
    rcases taken.entry_cases id with same | ⟨-, ⟨gone, -⟩ | ⟨fresh, -⟩ | ⟨_, _, _, stored, -⟩⟩
    · rw [same]
      exact unmixed
    · rw [gone]
      exact nofun
    · rw [fresh]
      exact nofun
    · rw [stored]
      exact nofun
  | edited | found | recorded | kept | forgotten | good | wanting | joined | vacant => exact unmixed
  | scheduled | started =>
    intro entry
    rcases mark_of_schedule entry with same | unclosed
    · exact unmixed same
    · cases unclosed
  | told | doomed =>
    rw [World.finish, Table.get?_insert]
    split_ifs
    · simp
    · exact unmixed
  | dropped =>
    rw [World.finish, Table.get?_erase]
    split_ifs
    · exact nofun
    · exact unmixed

/-- A task that goes on after a step had still to settle its entry. -/
theorem Cache.TaskStep.unsettled {cache after : Cache α} {task t : Task α} {move : Move}
    (taken : TaskStep env cache task move after) (ht : t ∈ after.tasks)
    (same : t.revision = task.revision) : task.stage.isUnsettled = true := by
  cases taken with
  | published | stopped => exact absurd same (mem_dropTask.mp ht).2
  | admitted stage | refused stage | read stage | unreadable stage | launched stage
  | completed _ stage | lost _ stage | rejected stage | condemned stage | superseded stage
  | installed stage | discarded stage | orphaned _ stage =>
    rw [stage]
    rfl

/-- A task is done with its entry when it drops out or has stored its outcome. -/
theorem Cache.Coherent.finished_of_taskStep {cache after : Cache α} {task : Task α} {move : Move}
    (coherent : Coherent cache) (member : task ∈ cache.tasks)
    (taken : TaskStep env cache task move after) {revision : Nat}
    (finished : revision ∈ after.finished) (new : revision ∉ cache.finished) :
    revision = task.revision ∧
      ∀ t ∈ after.tasks, t.revision = revision → t.stage.isUnsettled = false := by
  have first : ∀ rest : List Nat, revision ∈ task.revision :: rest → revision ∉ rest →
      revision = task.revision := fun rest found other =>
    (List.mem_cons.mp found).resolve_right other
  cases taken with
  | discarded =>
    obtain ⟨entries, discarded⟩ := cache.discardPending_eq task.id task.revision
    rw [discarded] at finished ⊢
    obtain rfl := first _ finished new
    exact ⟨rfl, fun t ht same => absurd same (mem_dropTask.mp ht).2⟩
  | rejected | superseded =>
    obtain rfl := first _ finished new
    exact ⟨rfl, fun t ht same => absurd same (mem_dropTask.mp ht).2⟩
  | installed =>
    obtain rfl := first _ finished new
    refine ⟨rfl, fun t ht same => ?_⟩
    rcases (coherent.mem_moveTask member).mp ht with rfl | ⟨-, other⟩
    · rfl
    · exact absurd same other
  | refused =>
    obtain ⟨entries, discarded⟩ := cache.discardPending_eq task.id task.revision
    rw [discarded] at finished
    exact absurd finished new
  | admitted | read | unreadable | launched | completed | lost | condemned | published | stopped
  | orphaned => exact absurd finished new

/-- Clients finish no task. -/
theorem Cache.ClientStep.finished_eq {calls : List Remainder} {cache after : Cache α}
    (taken : ClientStep calls cache after) : after.finished = cache.finished := by
  cases taken <;> rfl

/-- The tasks that are done with their entries have settled them. -/
theorem Run.finished (run : Run env world trail) :
    ∀ revision ∈ world.cache.finished, revision ≤ world.cache.lastRevision ∧
      ∀ task ∈ world.cache.tasks, task.revision = revision → task.stage.isUnsettled = false := by
  induction run with
  | start files => exact nofun
  | @step world next trail run action taken ih =>
    have coherent := run.coherent.cache
    intro revision finished
    rcases World.step_cases taken with ⟨task, member, move, -, -, taken⟩ | ⟨-, taken⟩
    · have known := coherent.revision_le member
      have grown := taken.lastRevision_le
      by_cases new : revision ∈ world.cache.finished
      · obtain ⟨bound, settled⟩ := ih revision new
        refine ⟨Nat.le_trans bound grown, fun t ht same => ?_⟩
        rcases coherent.mem_of_taskStep member taken ht with ⟨ht, -⟩ | ⟨_, rfl, -⟩ | rfl
        · exact settled t ht same
        · -- A task that has settled its entry does not go on.
          have unsettled := taken.unsettled ht rfl
          rw [settled task member same] at unsettled
          cases unsettled
        · change world.cache.lastRevision + 1 = revision at same
          omega
      · obtain ⟨rfl, settled⟩ := coherent.finished_of_taskStep member taken finished new
        exact ⟨Nat.le_trans known grown, settled⟩
    · rw [taken.finished_eq] at finished
      obtain ⟨bound, settled⟩ := ih revision finished
      refine ⟨Nat.le_trans bound taken.lastRevision_le, fun t ht same => ?_⟩
      rcases taken.mem_of_mem ht with ⟨before, member, -, named, stage⟩ | ⟨fresh, -⟩
      · rw [← stage]
        exact settled before member (named.trans same)
      · omega

/-- No mark belongs to a task that is done with its entry. -/
theorem Run.unfinished (run : Run env world trail) {id : Identity} {revision : Nat}
    {dirty closed : Bool}
    (mark : world.cache.entries.get? id = some (.pending revision dirty closed)) :
    revision ∉ world.cache.finished := by
  intro finished
  obtain ⟨task, member, -, named, unsettled, -⟩ := run.coherent.cache.marked _ _ _ _ mark
  rw [(run.finished revision finished).2 task member named] at unsettled
  cases unsettled

end

/-! ## A calm cache -/

/-- Whether these steps have come to a cache, before the end of the work has begun, by calls that
follow each other and revive no parse. -/
def Cache.CalmAfter (env : Environment α) (trail : List (World α × Action)) (cache : Cache α) :
    Prop :=
  ∃ files, Run env ⟨cache, files, []⟩ trail ∧ Serial trail ∧
    (∀ moment ∈ trail, ¬ Revives moment.1 moment.2) ∧ cache.accepting = true

/-- Whether some steps can come to a cache like that. -/
def Cache.Calm (env : Environment α) (cache : Cache α) : Prop :=
  ∃ trail, cache.CalmAfter env trail

/-- Whether the parse on its way has to be made again, since the text has changed. -/
def Cache.isDirty (cache : Cache α) (id : Identity) : Bool :=
  match cache.entries.get? id with
  | some (.pending _ dirty _) => dirty
  | _ => false

namespace Cache

variable {env : Environment α} {cache next : Cache α} {task : Task α} {move : Move}
  {files : FileSystem} {id : Identity}

/-- The mark of a parse says whether it is dirty. -/
theorem isDirty_of_mark {revision : Nat} {dirty closed : Bool}
    (entry : cache.entries.get? id = some (.pending revision dirty closed)) :
    cache.isDirty id = dirty := by
  simp only [isDirty, entry]

/-- Where no parse is on its way, none is dirty. -/
theorem isDirty_of_free
    (free : ∀ revision dirty closed,
      cache.entries.get? id ≠ some (.pending revision dirty closed)) :
    cache.isDirty id = false := by
  unfold isDirty
  split
  · rename_i entry
    exact absurd entry (free _ _ _)
  · rfl

/-- Entries that are the same are dirty in the same cases. -/
theorem isDirty_congr (same : next.entries.get? id = cache.entries.get? id) :
    next.isDirty id = cache.isDirty id := by
  simp only [isDirty, same]

/-- After a step that revives no parse and is a call of its own the cache is calm again, whatever
was on the disk then. -/
theorem CalmAfter.step {trail : List (World α × Action)} (calm : cache.CalmAfter env trail)
    (files : FileSystem) {action : Action} {after : World α}
    (taken : (⟨cache, files, []⟩ : World α).step env action = some after)
    (sober : ¬ Revives ⟨cache, files, []⟩ action) (calls : after.calls = [])
    (accepting : after.cache.accepting = true) : ∃ before, after.cache.CalmAfter env
      ((⟨cache, files, []⟩, action) :: (before, .edit files) :: trail) := by
  obtain ⟨_, run, serial, before, _⟩ := calm
  have edited : Run env ⟨cache, files, []⟩ _ := run.step (.edit files) rfl
  have stepped := edited.step action taken
  obtain ⟨after, files', calls'⟩ := after
  cases calls
  refine ⟨_, files', stepped, fun moment passed begins => ?_, fun moment passed => ?_, accepting⟩
  · rcases List.mem_cons.mp passed with rfl | passed
    · rfl
    · rcases List.mem_cons.mp passed with rfl | passed
      · rfl
      · exact serial moment passed begins
  · rcases List.mem_cons.mp passed with rfl | passed
    · exact sober
    · rcases List.mem_cons.mp passed with rfl | passed
      · exact id
      · exact before moment passed

namespace Calm

/-- A calm cache fits together. -/
theorem coherent (calm : cache.Calm env) : cache.Coherent := by
  obtain ⟨_, _, run, -⟩ := calm
  exact run.coherent.cache

/-- Parses may be started. -/
theorem accepting (calm : cache.Calm env) : cache.accepting = true := by
  obtain ⟨_, _, _, _, _, accepting⟩ := calm
  exact accepting

/-- Tasks may get workers. -/
theorem admitting (calm : cache.Calm env) : cache.admitting = true := by
  obtain ⟨_, _, run, _, _, accepting⟩ := calm
  exact run.coherent.admitting accepting

/-- No mark is dirty and closed. -/
theorem unmixed (calm : cache.Calm env) (id : Identity) (revision : Nat) :
    cache.entries.get? id ≠ some (.pending revision true true) := by
  obtain ⟨_, _, run, serial, _, accepting⟩ := calm
  exact run.unmixed serial accepting id revision

/-- A task that has still to settle its entry has its mark there. -/
theorem holds (calm : cache.Calm env) (member : task ∈ cache.tasks)
    (unsettled : task.stage.isUnsettled = true) :
    ∃ dirty closed, cache.entries.get? task.id = some (.pending task.revision dirty closed) :=
  calm.coherent.holds task member unsettled (calm.coherent.unstopped calm.accepting task member)

/-- A task that is about to drop its entry finds it marked as closed. -/
theorem doomed (calm : cache.Calm env) (member : task ∈ cache.tasks)
    (stage : task.stage = .condemned) :
    cache.entries.get? task.id = some (.pending task.revision false true) := by
  obtain ⟨dirty, closed, entry⟩ := calm.holds member (by rw [stage]; rfl)
  have unmixed := calm.unmixed task.id task.revision
  obtain ⟨_, _, run, serial, sober, accepting⟩ := calm
  obtain rfl := (run.steady serial accepting sober).doomed task member stage dirty closed entry
  cases dirty with
  | false => exact entry
  | true => exact absurd entry unmixed

/-- No mark belongs to a task that is done with its entry. -/
theorem unfinished (calm : cache.Calm env) {revision : Nat} {dirty closed : Bool}
    (mark : cache.entries.get? id = some (.pending revision dirty closed)) :
    revision ∉ cache.finished := by
  obtain ⟨_, _, run, -⟩ := calm
  exact run.unfinished mark

/-- A step that revives no parse and is a call of its own leaves a calm cache, whatever is on the
disk. -/
theorem step (calm : cache.Calm env) (files : FileSystem) {action : Action} {after : World α}
    (taken : (⟨cache, files, []⟩ : World α).step env action = some after)
    (sober : ¬ Revives ⟨cache, files, []⟩ action) (calls : after.calls = [])
    (accepting : after.cache.accepting = true) : after.cache.Calm env := by
  obtain ⟨trail, reached⟩ := calm
  obtain ⟨_, later⟩ := reached.step files taken sober calls accepting
  exact ⟨_, later⟩

/-- A look-up leaves a calm cache. -/
theorem look (calm : cache.Calm env) (id : Identity) : (cache.lookup id).1.Calm env := by
  have accepting : (cache.lookup id).1.accepting = true := by
    rcases lookup_of_accepting calm.accepting id with same | ⟨-, scheduled⟩
    · rw [same]
      exact calm.accepting
    · rw [scheduled]
      exact calm.accepting
  have looked : (⟨cache, env.files, []⟩ : World α).step env (.look id) =
      some ⟨(cache.lookup id).1, env.files, []⟩ := rfl
  exact calm.step env.files looked (fun revives => revives) rfl accepting

end Calm

end Cache

/-! ## What becomes of a parse -/

/-- What becomes of a parse when its task takes a step: whether it is dirty and the stage of its
task, before and after. Nothing is left of it in the end, and where another parse takes its place it
is that one. -/
inductive Becomes : Move → Bool → Stage α → List (Bool × Stage α) → Prop where
  | admitted (dirty : Bool) : Becomes .assignWorker dirty .queued [(dirty, .admitted)]
  | read (dirty : Bool) (document : Option Document) :
      Becomes .readDocument dirty .admitted [(dirty, .reading document)]
  | unreadable (dirty : Bool) (document : Option Document) (uri : Option Uri)
      (outcome : Outcome α) :
      Becomes .launch dirty (.reading document) [(dirty, .parsed uri outcome)]
  | launched (dirty : Bool) (document : Option Document) (uri : Option Uri) (call : Call) :
      Becomes .launch dirty (.reading document) [(dirty, .parsing uri call)]
  | completed (dirty : Bool) (uri : Option Uri) (call : Call) (outcome : Outcome α) :
      Becomes .complete dirty (.parsing uri call) [(dirty, .parsed uri outcome)]
  | condemned (uri : Option Uri) (outcome : Outcome α) :
      Becomes .store false (.parsed uri outcome) [(false, .condemned)]
  | superseded (uri : Option Uri) (outcome : Outcome α) :
      Becomes .store true (.parsed uri outcome) [(false, .queued)]
  | installed (uri : Option Uri) (outcome : Outcome α) :
      Becomes .store false (.parsed uri outcome) [(false, .installed uri outcome)]
  | discarded : Becomes .discard false .condemned []
  | published (dirty : Bool) (uri : Option Uri) (outcome : Outcome α) :
      Becomes .publish dirty (.installed uri outcome) []

namespace Cache

variable {env : Environment α} {cache next : Cache α} {task : Task α} {move : Move}
  {files : FileSystem} {id : Identity}

/-- The ways in which a step of a task changes a calm cache. -/
inductive Stride (cache : Cache α) (task : Task α) : Move → Cache α → Prop where
  /-- It goes on to its next stage. -/
  | moved {move : Move} {next : Cache α} {stage : Stage α}
      (tasks : next.tasks = (cache.moveTask task.revision stage).tasks)
      (entries : next.entries = cache.entries) (finished : next.finished = cache.finished)
      (becomes : Becomes move (cache.isDirty task.id) task.stage [(cache.isDirty task.id, stage)]) :
      Stride cache task move next
  /-- It finds that the text has changed, and another parse takes its place. -/
  | superseded {uri : Option Uri} {outcome : Outcome α} (stage : task.stage = .parsed uri outcome)
      (mark : cache.entries.get? task.id = some (.pending task.revision true false)) :
      Stride cache task .store ((cache.schedule task.id).retire task)
  /-- It stores its outcome in place of its mark. -/
  | installed {uri : Option Uri} {outcome : Outcome α} (stage : task.stage = .parsed uri outcome)
      (mark : cache.entries.get? task.id = some (.pending task.revision false false)) :
      Stride cache task .store (cache.install task uri outcome)
  /-- It drops the entry of a closed document. -/
  | discarded (stage : task.stage = .condemned)
      (mark : cache.entries.get? task.id = some (.pending task.revision false true)) :
      Stride cache task .discard ({ cache with entries := cache.entries.erase task.id }.retire task)
  /-- It tells the client of its outcome. -/
  | published {next : Cache α} {uri : Option Uri} {outcome : Outcome α}
      (stage : task.stage = .installed uri outcome)
      (tasks : next.tasks = (cache.dropTask task.revision).tasks)
      (entries : next.entries = cache.entries) (finished : next.finished = cache.finished) :
      Stride cache task .publish next

/-- Whether those are the tasks that a step leaves of a task: the task itself at its next stage, the
one that takes its place, or none. -/
structure Leaves (cache : Cache α) (task : Task α) (next : Cache α) (heirs : List (Task α)) :
    Prop where
  /-- The other tasks stay. -/
  tasks : next.tasks.Perm (heirs ++ (cache.dropTask task.revision).tasks)
  /-- The file is the same. -/
  file : ∀ heir ∈ heirs, heir.id = task.id
  /-- No other parse on its way becomes dirty or clean. -/
  others : ∀ other ∈ (cache.dropTask task.revision).tasks, other.stage.isUnsettled = true →
    next.isDirty other.id = cache.isDirty other.id

/-- Whether a step leaves those tasks and its parse becomes what is listed. -/
structure Inherit (cache : Cache α) (task : Task α) (move : Move) (next : Cache α)
    (heirs : List (Task α)) : Prop extends cache.Leaves task next heirs where
  /-- The parse becomes what is listed. -/
  becomes : Becomes move (cache.isDirty task.id) task.stage
    (heirs.map fun heir => (next.isDirty heir.id, heir.stage))

namespace Coherent

/-- Moving a task leaves it at its new stage and the others. -/
theorem perm_moveTask (coherent : Coherent cache) (member : task ∈ cache.tasks) (stage : Stage α) :
    (cache.moveTask task.revision stage).tasks.Perm
      ({ task with stage := stage } :: (cache.dropTask task.revision).tasks) :=
  perm_change coherent.distinct member fun t => { t with stage := stage }

/-- A step that changes no entry but that of a task which had still to settle it makes no other
parse dirty or clean. -/
theorem isDirty_of_others (coherent : Coherent cache) (member : task ∈ cache.tasks)
    (unsettled : task.stage.isUnsettled = true)
    (elsewhere : ∀ id, id ≠ task.id → next.entries.get? id = cache.entries.get? id) :
    ∀ other ∈ (cache.dropTask task.revision).tasks, other.stage.isUnsettled = true →
      next.isDirty other.id = cache.isDirty other.id := by
  intro other left still
  obtain ⟨found, apart⟩ := mem_dropTask.mp left
  -- No other parse of the file is on its way.
  exact isDirty_congr (elsewhere _ fun same =>
    apart (coherent.sole other found task member still unsettled same))

/-- A task that goes on is left at its new stage. -/
theorem leaves_moveTask (coherent : Coherent cache) (member : task ∈ cache.tasks) {stage : Stage α}
    (tasks : next.tasks = (cache.moveTask task.revision stage).tasks)
    (others : ∀ other ∈ (cache.dropTask task.revision).tasks, other.stage.isUnsettled = true →
      next.isDirty other.id = cache.isDirty other.id) :
    cache.Leaves task next [{ task with stage := stage }] := by
  refine ⟨?_, by simp, others⟩
  rw [tasks]
  exact coherent.perm_moveTask member stage

/-- A task in whose place another parse is put leaves that one. -/
theorem leaves_supersede (coherent : Coherent cache) (member : task ∈ cache.tasks)
    (unsettled : task.stage.isUnsettled = true) :
    cache.Leaves task ((cache.schedule task.id).retire task)
      [⟨task.id, cache.lastRevision + 1, .queued, false⟩] := by
  refine ⟨?_, by simp, coherent.isDirty_of_others member unsettled fun id other =>
    (get?_schedule ..).trans (if_neg other)⟩
  rw [coherent.tasks_of_supersede member]
  exact List.perm_append_comm

end Coherent

namespace Calm

/-- Every step of a task is one of those listed: nobody was told to stop, every task that has still
to settle its entry finds its mark there, and a dirty mark leads to another parse. -/
theorem stride (calm : cache.Calm env) (member : task ∈ cache.tasks)
    (taken : TaskStep (env.on files) cache task move next) : cache.Stride task move next := by
  have coherent := calm.coherent
  -- No task was told to stop, so none is refused, stops or loses its outcome.
  have alive := coherent.unstopped calm.accepting task member
  cases taken with
  | admitted stage =>
    refine .moved rfl rfl rfl ?_
    rw [stage]
    exact .admitted _
  | refused _ admitting =>
    rw [calm.admitting] at admitting
    cases admitting
  | read stage =>
    refine .moved rfl rfl rfl ?_
    rw [stage]
    exact .read ..
  | unreadable stage =>
    refine .moved rfl rfl rfl ?_
    rw [stage]
    exact .unreadable ..
  | launched stage =>
    refine .moved rfl rfl rfl ?_
    rw [stage]
    exact .launched ..
  | completed _ stage =>
    refine .moved rfl rfl rfl ?_
    rw [stage]
    exact .completed ..
  | lost _ stage =>
    have awaited := coherent.awaited task member alive
    rw [stage] at awaited
    cases awaited
  | rejected stage foreign =>
    obtain ⟨dirty, closed, entry⟩ := calm.holds member (by rw [stage]; rfl)
    exact absurd entry (foreign dirty closed)
  | @condemned _ _ dirty stage entry =>
    refine .moved rfl rfl rfl ?_
    rw [stage, isDirty_of_mark entry]
    cases dirty with
    | false => exact .condemned ..
    | true => exact absurd entry (calm.unmixed _ _)
  | superseded stage entry => exact .superseded stage entry
  | @installed uri outcome stage entry =>
    refine .installed stage ?_
    obtain ⟨dirty, closed, own⟩ := calm.holds member (by rw [stage]; rfl)
    rcases entry with ⟨dirty, entry, ended⟩ | ⟨_, _, ready, -⟩
    · cases dirty with
      | false => exact entry
      | true =>
        have refusing := ended rfl
        rw [calm.accepting] at refusing
        cases refusing
    · rw [ready] at own
      cases own
  | discarded stage =>
    have mark := calm.doomed member stage
    rw [discardPending_of_mark mark]
    exact .discarded stage mark
  | published stage => exact .published stage rfl rfl rfl
  | stopped aborted =>
    rw [alive] at aborted
    cases aborted
  | orphaned aborted =>
    rw [alive] at aborted
    cases aborted

/-- What every step of a task leaves, and what becomes of its parse. -/
theorem inherit (calm : cache.Calm env) (member : task ∈ cache.tasks)
    (taken : TaskStep (env.on files) cache task move next) :
    ∃ heirs, cache.Inherit task move next heirs := by
  have coherent := calm.coherent
  cases calm.stride member taken with
  | @moved _ _ stage tasks entries finished becomes =>
    have same : ∀ id, next.isDirty id = cache.isDirty id :=
      fun id => isDirty_congr (by rw [entries])
    refine ⟨_, coherent.leaves_moveTask member tasks fun other _ _ => same other.id, ?_⟩
    rw [List.map_singleton, same]
    exact becomes
  | superseded stage mark =>
    refine ⟨_, coherent.leaves_supersede member (by rw [stage]; rfl), ?_⟩
    have clean : ((cache.schedule task.id).retire task).isDirty task.id = false :=
      isDirty_of_mark ((get?_schedule ..).trans (if_pos rfl))
    rw [List.map_singleton, clean, stage, isDirty_of_mark mark]
    exact .superseded ..
  | @installed uri outcome stage mark =>
    have elsewhere : ∀ id, id ≠ task.id →
        (cache.install task uri outcome).entries.get? id = cache.entries.get? id :=
      fun id other => (get?_install ..).trans (if_neg other)
    have clean : (cache.install task uri outcome).isDirty task.id = false :=
      isDirty_of_free (free_of_ready ((get?_install ..).trans (if_pos rfl)))
    refine ⟨_, coherent.leaves_moveTask member rfl
      (coherent.isDirty_of_others member (by rw [stage]; rfl) elsewhere), ?_⟩
    rw [List.map_singleton, clean, isDirty_of_mark mark, stage]
    exact .installed ..
  | discarded stage mark =>
    refine ⟨[], ⟨List.Perm.refl _, nofun, coherent.isDirty_of_others member (by rw [stage]; rfl)
      fun id other => (Table.get?_erase ..).trans (if_neg other)⟩, ?_⟩
    rw [stage, isDirty_of_mark mark]
    exact .discarded
  | published stage tasks entries =>
    refine ⟨[], ⟨?_, nofun, fun other _ _ => isDirty_congr (by rw [entries])⟩, ?_⟩
    · rw [tasks]
      exact List.Perm.refl _
    · rw [stage]
      exact .published ..

/-- A step of a task leaves the entries as they are, or settles that of its file: a dirty mark gives
way to that of another parse, a clean one to the outcome, and a closed one to nothing. -/
theorem settle_cases (calm : cache.Calm env) (member : task ∈ cache.tasks)
    (taken : TaskStep (env.on files) cache task move next) :
    next.entries = cache.entries ∧ next.finished = cache.finished ∨
    (∀ id, id ≠ task.id → next.entries.get? id = cache.entries.get? id) ∧
      next.finished = task.revision :: cache.finished ∧
      (cache.entries.get? task.id = some (.pending task.revision true false) ∧
          next.entries.get? task.id = some (.pending (cache.lastRevision + 1) false false) ∨
        cache.entries.get? task.id = some (.pending task.revision false false) ∧
          (∃ outcome, next.entries.get? task.id = some (.ready task.revision outcome)) ∨
        cache.entries.get? task.id = some (.pending task.revision false true) ∧
          next.entries.get? task.id = none) := by
  cases calm.stride member taken with
  | moved _ entries finished | published _ _ entries finished => exact .inl ⟨entries, finished⟩
  | superseded _ mark =>
    exact .inr ⟨fun id other => (get?_schedule ..).trans (if_neg other), rfl,
      .inl ⟨mark, (get?_schedule ..).trans (if_pos rfl)⟩⟩
  | installed _ mark =>
    exact .inr ⟨fun id other => (get?_install ..).trans (if_neg other), rfl,
      .inr (.inl ⟨mark, _, (get?_install ..).trans (if_pos rfl)⟩)⟩
  | discarded _ mark =>
    exact .inr ⟨fun id other => (Table.get?_erase ..).trans (if_neg other), rfl,
      .inr (.inr ⟨mark, (Table.get?_erase ..).trans (if_pos rfl)⟩)⟩

end Calm

end Cache

/-! ## Weights of parses -/

namespace Stage

/-- Whether a task in this stage has started its parser and has still to settle its entry. -/
def hasBegun : Stage α → Bool
  | parsing _ _ | parsed _ _ | condemned | orphaned _ => true
  | queued | admitted | reading _ | installed _ _ => false

/-- How often the parser is run for a parse on its way, from its beginning to its end: once, and
once more if the text has changed. -/
def load (dirty : Bool) (stage : Stage α) : Nat :=
  if stage.isUnsettled then 1 + dirty.toNat else 0

/-- How often the parser is still to be started for a parse. -/
def due (dirty : Bool) (stage : Stage α) : Nat :=
  if stage.isUnsettled then (if stage.hasBegun then 0 else 1) + dirty.toNat else 0

/-- How many steps are left for a parse, at most. One for which nobody waits any more has come a
step further than others whose parser is running. -/
def effort (dirty : Bool) (stage : Stage α) : Nat :=
  (if stage.isAwaited then 6 - stage.rank else 2) + if stage.isUnsettled && dirty then 6 else 0

/-- The parser was started, or is still to be. -/
theorem due_add_hasBegun (dirty : Bool) (stage : Stage α) :
    stage.due dirty + stage.hasBegun.toNat = stage.load dirty := by
  cases stage <;> simp [due, load, hasBegun, isUnsettled, Nat.add_comm]

/-- A parse takes six steps each time, and one to announce its outcome. -/
theorem effort_le (dirty : Bool) (stage : Stage α) :
    stage.effort dirty ≤ 6 * stage.load dirty + 1 := by
  cases stage <;> cases dirty <;> simp [effort, load, isUnsettled, isAwaited, rank]

/-- Every parse has a step left. -/
theorem effort_pos (dirty : Bool) (stage : Stage α) : 0 < stage.effort dirty := by
  refine Nat.lt_of_lt_of_le ?_ (Nat.le_add_right _ _)
  cases stage <;> simp [isAwaited, rank]

/-- A task that has settled its entry has nothing to do with the text. -/
theorem effort_of_settled {stage : Stage α} (settled : stage.isUnsettled = false) (dirty : Bool) :
    stage.effort dirty = stage.effort false := by
  simp [effort, settled]

/-- A task that has settled its entry starts no parser. -/
theorem due_of_settled {stage : Stage α} (settled : stage.isUnsettled = false) (dirty : Bool) :
    stage.due dirty = stage.due false := by
  simp [due, settled]

end Stage

section

variable {move : Move} {dirty : Bool} {stage : Stage α} {heirs : List (Bool × Stage α)}

/-- The parser is to be started once less after it was started, and as often as before after any
other step. -/
theorem Becomes.due_eq (becomes : Becomes move dirty stage heirs) :
    (heirs.map fun heir => heir.2.due heir.1).sum + (if move = .launch then 1 else 0) =
      stage.due dirty := by
  cases becomes <;> simp [Stage.due, Stage.hasBegun, Stage.isUnsettled, Nat.add_comm]

end

namespace Cache

/-- The weight of all parses of those files. -/
def total (cache : Cache α) (weight : Bool → Stage α → Nat) (about : Identity → Bool) : Nat :=
  (cache.tasks.map fun task =>
    if about task.id then weight (cache.isDirty task.id) task.stage else 0).sum

/-- How many parses of those files have started their parser and have still to settle their entries.
-/
def begun (cache : Cache α) (about : Identity → Bool) : Nat :=
  (cache.tasks.filter fun task => about task.id && task.stage.hasBegun).length

section

variable {env : Environment α} {cache next : Cache α} {task : Task α} {move : Move}
  {files : FileSystem} {id : Identity} {heirs : List (Task α)} {weight : Bool → Stage α → Nat}

/-- A step of a task changes every weight as it changes that of its parse, if only parses on their
way are weighed by whether they are dirty. -/
theorem Leaves.total_eq (leaves : cache.Leaves task next heirs) (coherent : Coherent cache)
    (member : task ∈ cache.tasks)
    (settled : ∀ stage : Stage α, stage.isUnsettled = false →
      ∀ dirty, weight dirty stage = weight false stage) (about : Identity → Bool) :
    next.total weight about +
        (if about task.id then weight (cache.isDirty task.id) task.stage else 0) =
      cache.total weight about +
        if about task.id then
          (heirs.map fun heir => weight (next.isDirty heir.id) heir.stage).sum
        else 0 := by
  have after := (leaves.tasks.map fun task =>
    if about task.id then weight (next.isDirty task.id) task.stage else 0).sum_nat
  have before := ((perm_key coherent.distinct member).map fun task =>
    if about task.id then weight (cache.isDirty task.id) task.stage else 0).sum_nat
  -- The other tasks weigh the same before and after.
  have others : ((cache.dropTask task.revision).tasks.map fun task =>
      if about task.id then weight (next.isDirty task.id) task.stage else 0) =
      (cache.dropTask task.revision).tasks.map fun task =>
        if about task.id then weight (cache.isDirty task.id) task.stage else 0 := by
    refine List.map_congr_left fun other left => ?_
    cases unsettled : other.stage.isUnsettled with
    | true => rw [leaves.others other left unsettled]
    | false => rw [settled _ unsettled (next.isDirty _), settled _ unsettled (cache.isDirty _)]
  have own : (heirs.map fun heir =>
      if about heir.id then weight (next.isDirty heir.id) heir.stage else 0) =
      heirs.map fun heir => if about task.id then weight (next.isDirty heir.id) heir.stage else 0 :=
    List.map_congr_left fun heir found => by rw [leaves.file heir found]
  rw [List.map_append, List.sum_append, own, others] at after
  change _ = ((task :: (cache.dropTask task.revision).tasks).map _).sum at before
  rw [List.map_cons, List.sum_cons] at before
  unfold total
  split_ifs at after before ⊢ with counted
  · omega
  · rw [List.map_const', List.sum_replicate_nat] at after
    omega

/-- Whether a step leaves fewer steps of a task than there were before it. -/
def Lessens (cache : Cache α) (task : Task α) (next : Cache α) : Prop :=
  ∃ heirs, cache.Leaves task next heirs ∧
    (heirs.map fun heir => heir.stage.effort (next.isDirty heir.id)).sum <
      task.stage.effort (cache.isDirty task.id)

/-- A task that goes on with no entry changed, and has come further, has fewer steps left. -/
theorem Coherent.lessens_moveTask (coherent : Coherent cache) (member : task ∈ cache.tasks)
    {stage : Stage α} (entries : next.entries = cache.entries)
    (tasks : next.tasks = (cache.moveTask task.revision stage).tasks)
    (less : ∀ dirty, stage.effort dirty < task.stage.effort dirty) : cache.Lessens task next := by
  have same : ∀ id, next.isDirty id = cache.isDirty id := fun id => isDirty_congr (by rw [entries])
  refine ⟨_, coherent.leaves_moveTask member tasks fun other _ _ => same other.id, ?_⟩
  rw [List.map_singleton, List.sum_singleton, same]
  exact less _

/-- Of a task that is dropped nothing is left. -/
theorem lessens_dropTask (tasks : next.tasks = (cache.dropTask task.revision).tasks)
    (others : ∀ other ∈ (cache.dropTask task.revision).tasks, other.stage.isUnsettled = true →
      next.isDirty other.id = cache.isDirty other.id) : cache.Lessens task next := by
  refine ⟨[], ⟨?_, nofun, others⟩, task.stage.effort_pos _⟩
  rw [tasks]
  exact List.Perm.refl _

/-- Every step of a task leaves fewer steps of it. -/
theorem Coherent.lessens (coherent : Coherent cache) (member : task ∈ cache.tasks)
    (taken : TaskStep env cache task move next) : cache.Lessens task next := by
  cases taken with
  | admitted stage | read stage | unreadable stage | launched stage | completed _ stage
  | condemned stage | orphaned _ stage =>
    refine coherent.lessens_moveTask member rfl rfl fun dirty => ?_
    rw [stage]
    simp [Stage.effort, Stage.isAwaited, Stage.isUnsettled, Stage.rank]
  | lost | rejected | published | stopped => exact lessens_dropTask rfl fun _ _ _ => rfl
  | refused stage | discarded stage =>
    have elsewhere : ∀ id, id ≠ task.id →
        (cache.discardPending task.id task.revision).entries.get? id = cache.entries.get? id :=
      fun id other => (cache.get?_discardPending_cases task.id id task.revision).resolve_right
        fun gone => other gone.1
    refine lessens_dropTask ?_ (coherent.isDirty_of_others member (by rw [stage]; rfl) elsewhere)
    obtain ⟨entries, discarded⟩ := cache.discardPending_eq task.id task.revision
    rw [discarded]
    rfl
  | superseded stage entry =>
    refine ⟨_, coherent.leaves_supersede member (by rw [stage]; rfl), ?_⟩
    have clean : ((cache.schedule task.id).retire task).isDirty task.id = false :=
      isDirty_of_mark ((get?_schedule ..).trans (if_pos rfl))
    rw [List.map_singleton, List.sum_singleton, clean, stage, isDirty_of_mark entry]
    simp [Stage.effort, Stage.isAwaited, Stage.isUnsettled, Stage.rank]
  | installed stage =>
    refine ⟨_, coherent.leaves_moveTask member rfl
      (coherent.isDirty_of_others member (by rw [stage]; rfl) fun id other =>
        (get?_install ..).trans (if_neg other)), ?_⟩
    rw [List.map_singleton, List.sum_singleton, stage]
    exact Nat.lt_of_lt_of_le (Nat.lt_succ_self 1) (Nat.le_add_right _ _)

/-- Every step leaves less to do. -/
theorem Coherent.effort_lt (coherent : Coherent cache) (member : task ∈ cache.tasks)
    (taken : TaskStep env cache task move next) :
    next.total Stage.effort (fun _ => true) < cache.total Stage.effort (fun _ => true) := by
  obtain ⟨heirs, leaves, spent⟩ := coherent.lessens member taken
  have total := leaves.total_eq coherent member (fun _ => Stage.effort_of_settled) fun _ => true
  simp only [if_true] at total
  omega

/-- Starting the parser is what brings the starts that are left down. -/
theorem Calm.due_eq (calm : cache.Calm env) (member : task ∈ cache.tasks)
    (taken : TaskStep (env.on files) cache task move next) (about : Identity → Bool) :
    next.total Stage.due about + (if move = .launch ∧ about task.id = true then 1 else 0) =
      cache.total Stage.due about := by
  obtain ⟨heirs, inherit⟩ := calm.inherit member taken
  have spent := inherit.becomes.due_eq
  have total := inherit.total_eq calm.coherent member (fun _ => Stage.due_of_settled) about
  rw [List.map_map] at spent
  change (heirs.map fun heir => heir.stage.due (next.isDirty heir.id)).sum + _ = _ at spent
  by_cases counted : about task.id = true
  · simp only [counted, if_true, and_true] at total ⊢
    omega
  · simp only [counted, Bool.false_eq_true, if_false, and_false] at total ⊢
    omega

/-- A parse that is started adds the weight of a task that waits. -/
theorem total_schedule
    (free : ∀ revision dirty closed,
      cache.entries.get? id ≠ some (.pending revision dirty closed)) (about : Identity → Bool) :
    (cache.schedule id).total weight about =
      cache.total weight about + if about id then weight false .queued else 0 := by
  have fresh : (cache.schedule id).isDirty id = false :=
    isDirty_of_mark ((get?_schedule ..).trans (if_pos rfl))
  have same : ∀ other, (cache.schedule id).isDirty other = cache.isDirty other := by
    intro other
    by_cases own : other = id
    · rw [own, fresh, isDirty_of_free free]
    · exact isDirty_congr ((get?_schedule ..).trans (if_neg own))
  unfold total
  simp only [same]
  rw [show (cache.schedule id).tasks = cache.tasks ++ [⟨id, cache.lastRevision + 1, .queued, false⟩]
    from rfl, List.map_append, List.sum_append, List.map_singleton, List.sum_singleton,
    isDirty_of_free free]

/-! ## Marks and tasks are equally many -/

/-- The files of the tasks that have still to settle their entries are those with a mark. -/
theorem Calm.perm_marks (calm : cache.Calm env) (test : Identity → Bool) :
    ((cache.tasks.filter fun task => task.stage.isUnsettled && test task.id).map Task.id).Perm
      (cache.entries.keys.filter fun id => cache.isInFlight id && test id) := by
  have coherent := calm.coherent
  have distinct : ((cache.tasks.filter fun task =>
      task.stage.isUnsettled && test task.id).map Task.id).Nodup := by
    refine List.pairwise_map.mpr ((coherent.ordered.filter _).imp_of_mem ?_)
    intro a b ha hb below same
    rw [List.mem_filter, Bool.and_eq_true] at ha hb
    have equal := coherent.sole a ha.1 b hb.1 ha.2.1 hb.2.1 same
    omega
  have keys : cache.entries.keys.Nodup := cache.entries.distinct
  -- No list names a file twice, so it is enough that they name the same files.
  refine (List.perm_ext_iff_of_nodup distinct (keys.filter _)).mpr fun id => ?_
  simp only [List.mem_map, List.mem_filter, Bool.and_eq_true]
  constructor
  · rintro ⟨task, ⟨member, unsettled, chosen⟩, rfl⟩
    obtain ⟨dirty, closed, entry⟩ := calm.holds member unsettled
    exact ⟨Table.mem_keys_of_get? entry, isInFlight_iff.mpr ⟨_, _, _, entry⟩, chosen⟩
  · rintro ⟨-, flying, chosen⟩
    obtain ⟨revision, dirty, closed, entry⟩ := isInFlight_iff.mp flying
    obtain ⟨task, member, rfl, -, unsettled, -⟩ := coherent.marked id revision dirty closed entry
    exact ⟨task, ⟨member, unsettled, chosen⟩, rfl⟩

/-- What the parses on their way stand for is the number of marks and of dirty marks. -/
theorem Calm.total_load (calm : cache.Calm env) (about : Identity → Bool) :
    cache.total Stage.load about =
      (cache.entries.keys.filter fun id => cache.isInFlight id && about id).length +
      (cache.entries.keys.filter fun id =>
        cache.isInFlight id && (about id && cache.isDirty id)).length := by
  rw [← (calm.perm_marks about).length_eq, List.length_map,
    ← (calm.perm_marks fun id => about id && cache.isDirty id).length_eq, List.length_map, total]
  -- A task counts on both sides once, and once more if its mark is dirty.
  induction cache.tasks with
  | nil => rfl
  | cons task rest ih =>
    rw [List.map_cons, List.sum_cons, ih, List.filter_cons, List.filter_cons, Stage.load]
    cases task.stage.isUnsettled <;> cases about task.id <;> cases cache.isDirty task.id <;>
      simp <;> omega

/-- A parser that is to be run for a parse on its way was started or is still to be. -/
theorem due_add_begun (cache : Cache α) (about : Identity → Bool) :
    cache.total Stage.due about + cache.begun about = cache.total Stage.load about := by
  unfold total begun
  induction cache.tasks with
  | nil => rfl
  | cons task rest ih =>
    have one := task.stage.due_add_hasBegun (cache.isDirty task.id)
    rw [List.map_cons, List.sum_cons, List.map_cons, List.sum_cons, List.filter_cons]
    cases about task.id <;> cases hb : task.stage.hasBegun <;> simp [hb] at one ⊢ <;> omega

/-- The steps that are left are at most six for each run of the parser, and one for each task. -/
theorem effort_le (cache : Cache α) :
    cache.total Stage.effort (fun _ => true) ≤
      6 * cache.total Stage.load (fun _ => true) + cache.tasks.length := by
  unfold total
  induction cache.tasks with
  | nil => exact Nat.zero_le _
  | cons task rest ih =>
    have one := task.stage.effort_le (cache.isDirty task.id)
    simp only [if_true, List.map_cons, List.sum_cons, List.length_cons] at ih ⊢
    omega

/-! ## There is always a step to take -/

/-- Where all tasks wait for a worker, no worker is taken. -/
theorem busy_of_queued (queued : ∀ task ∈ cache.tasks, task.stage = .queued) : cache.busy = 0 := by
  unfold busy
  rw [List.length_eq_zero_iff, List.filter_eq_nil_iff]
  intro task member
  rw [queued task member]
  exact nofun

/-- As long as there are tasks, one of them can take a step. -/
theorem Calm.exists_move (calm : cache.Calm env) (workers : 0 < env.workers)
    (working : cache.tasks ≠ []) (files : FileSystem) :
    ∃ task ∈ cache.tasks, ∃ move : Move, ∃ next,
      move.apply (env.on files) cache task = some next := by
  have coherent := calm.coherent
  by_cases queued : ∀ task ∈ cache.tasks, task.stage = .queued
  · obtain ⟨task, member⟩ := List.exists_mem_of_ne_nil _ working
    refine ⟨task, member, .assignWorker, cache.moveTask task.revision .admitted, ?_⟩
    have free : cache.busy < (env.on files).workers := by
      rw [busy_of_queued queued]
      exact workers
    simp only [Move.apply, assignWorker, queued task member, calm.admitting, free, decide_true,
      Bool.and_self, if_true]
  · push Not at queued
    obtain ⟨task, member, admitted⟩ := queued
    refine ⟨task, member, ?_⟩
    cases stage : task.stage with
    | queued => exact absurd stage admitted
    | admitted => exact ⟨.readDocument, _, by simp only [Move.apply, readDocument, stage]; rfl⟩
    | reading document =>
      refine ⟨.launch, ?_⟩
      simp only [Move.apply, launch, stage]
      split <;> exact ⟨_, rfl⟩
    | parsing uri call => exact ⟨.complete, _, by simp only [Move.apply, complete, stage]; rfl⟩
    | parsed uri outcome => exact ⟨.store, cache.exists_store stage⟩
    | condemned => exact ⟨.discard, _, by simp only [Move.apply, discard, stage]; rfl⟩
    | installed uri outcome => exact ⟨.publish, _, by simp only [Move.apply, publish, stage]; rfl⟩
    | orphaned call =>
      have awaited := coherent.awaited task member
        (coherent.unstopped calm.accepting task member)
      rw [stage] at awaited
      cases awaited

/-! ## What is left in the end -/

/-- Where there is no task, no parse is on its way. -/
theorem Calm.not_inFlight (calm : cache.Calm env) (ended : cache.tasks = []) (id : Identity) :
    cache.isInFlight id = false := by
  by_contra flying
  obtain ⟨revision, dirty, closed, entry⟩ := isInFlight_iff.mp (Bool.not_eq_false _ ▸ flying)
  obtain ⟨task, member, -⟩ := calm.coherent.marked id revision dirty closed entry
  rw [ended] at member
  cases member

/-- Where there is no task, every open document has the outcome of its text, with the source roots
at the launch of its parse. -/
theorem CalmAfter.outcome_of_open {trail : List (World α × Action)}
    (calm : cache.CalmAfter env trail) (ended : cache.tasks = []) {id : Identity}
    {document : Document} (opened : cache.documents.get? id = some document) :
    ∃ snapshot past, cache.cached? id = some snapshot ∧
      (past, .move snapshot.revision .launch) ∈ trail ∧
      snapshot.outcome = Parse.run env.parser id ⟨document.text, past.cache.roots⟩ := by
  have grounded := Calm.not_inFlight ⟨trail, calm⟩ ended id
  obtain ⟨files, run, serial, sober, accepting⟩ := calm
  have found : cache.documents.get? id ≠ none := by
    rw [opened]
    exact nofun
  have present := (run.steady serial accepting sober).present_of_no_calls rfl found
  cases entry : cache.entries.get? id with
  | none => exact absurd entry present
  | some held =>
    cases held with
    | pending revision dirty closed =>
      rw [isInFlight_iff.mpr ⟨_, _, _, entry⟩] at grounded
      cases grounded
    | ready revision outcome =>
      obtain ⟨past, launched, yields⟩ := (run.fresh serial accepting id).ready nofun nofun nofun
        (.inl found) revision outcome entry
      refine ⟨⟨revision, outcome⟩, past, cached?_eq_some.mpr entry, launched, ?_⟩
      rw [← yields, text?, opened]
      rfl

/-- Where nothing is held, or the mark of a closed document, a step of a task leaves it so. -/
theorem Calm.released_of_taskStep (calm : cache.Calm env) (member : task ∈ cache.tasks)
    (taken : TaskStep (env.on files) cache task move next) {id : Identity}
    (released : cache.entries.get? id = none ∨
      ∃ revision dirty, cache.entries.get? id = some (.pending revision dirty true)) :
    next.entries.get? id = none ∨
      ∃ revision dirty, next.entries.get? id = some (.pending revision dirty true) := by
  rcases calm.settle_cases member taken with ⟨entries, -⟩ | ⟨elsewhere, -, here⟩
  · rw [entries]
    exact released
  · by_cases own : id = task.id
    · subst own
      rcases here with ⟨mark, -⟩ | ⟨mark, -⟩ | ⟨-, gone⟩
      · rw [mark] at released
        obtain ⟨⟨⟩⟩ | ⟨_, _, ⟨⟩⟩ := released
      · rw [mark] at released
        obtain ⟨⟨⟩⟩ | ⟨_, _, ⟨⟩⟩ := released
      · exact .inl gone
    · rw [elsewhere id own]
      exact released

end

end Cache

end DiagnosticServer
