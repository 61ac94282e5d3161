import DiagnosticServer.Proofs.Cache.Serial

/-!
# Outcomes are current

An outcome that is held for an open document is that of the text which the document has now, and if
outcomes are dropped when documents are closed, an outcome that is held for a closed document is
that of its file. Nothing compares texts with outcomes; what prevents a stale outcome is that a
change of the text marks the parse that may have read the text before it, and `Fresh` says how far
that goes: a parse that is neither dirty nor closed has read the text as it is now, or has still to
read it.
-/

namespace DiagnosticServer

variable {α : Type}

open Cache

/-- The text that is open in the editor for a file. -/
def Cache.text? (cache : Cache α) (id : Identity) : Option String :=
  (cache.documents.get? id).map Document.text

/-- Whether the parse with that revision has come to that outcome by parsing that text, or the text
on the disk if there is none, with the files and the source roots at the time of its launch. -/
def Yields (env : Environment α) (trail : List (World α × Action)) (revision : Nat) (id : Identity)
    (text : Option String) (outcome : Outcome α) : Prop :=
  ∃ past, (past, Action.move revision .launch) ∈ trail ∧
    (Parse.file env.parser past.files past.cache.roots id text).1 = outcome

/-- Whether a task is about to parse that text, or has done so, as far as it has come. -/
def Task.Reads (env : Environment α) (trail : List (World α × Action)) (task : Task α)
    (text : Option String) : Prop :=
  match task.stage with
  | .reading document => document.map Document.text = text
  | .parsing _ call => ∃ past, (past, Action.move task.revision .launch) ∈ trail ∧
      Parse.prepare past.files past.cache.roots task.id text = (.ok call : Except (Outcome α) Call)
  | .parsed _ outcome => Yields env trail task.revision task.id text outcome
  | .queued | .admitted | .condemned | .installed _ _ | .orphaned _ => True

/-- Whether what is held for a file has to do with the text that is open for it. -/
def World.Governed (env : Environment α) (world : World α) (id : Identity) : Prop :=
  world.cache.documents.get? id ≠ none ∨ env.options.evictOnClose = true

/-- What is held for a file is of its text, unless a call has still to say that the text has
changed. -/
structure World.Fresh (env : Environment α) (world : World α) (trail : List (World α × Action))
    (id : Identity) : Prop where
  /-- An outcome is that of the text. -/
  ready : .revise id false ∉ world.calls → .request id ∉ world.calls → .evict id ∉ world.calls →
    world.Governed env id → ∀ revision outcome,
    world.cache.entries.get? id = some (.ready revision outcome) →
    Yields env trail revision id (world.cache.text? id) outcome
  /-- A parse that is neither dirty nor closed is of the text. -/
  pending : .revise id false ∉ world.calls → .evict id ∉ world.calls → world.Governed env id →
    ∀ revision, world.cache.entries.get? id = some (.pending revision false false) →
    ∀ task ∈ world.cache.tasks, task.id = id → task.Reads env trail (world.cache.text? id)

section

variable {env : Environment α} {world next : World α} {trail : List (World α × Action)}
  {moment : World α × Action} {action : Action} {task : Task α} {text : Option String}
  {revision : Nat} {id : Identity} {outcome : Outcome α}

/-! ## What a task has read -/

/-- What has happened stays so. -/
theorem Yields.later (yields : Yields env trail revision id text outcome) :
    Yields env (moment :: trail) revision id text outcome := by
  obtain ⟨past, launched, parsed⟩ := yields
  exact ⟨past, List.mem_cons_of_mem _ launched, parsed⟩

/-- A file that cannot be read has its outcome at once. -/
theorem Yields.of_error (prepared : Parse.prepare world.files world.cache.roots id text =
    .error outcome) :
    Yields env ((world, .move revision .launch) :: trail) revision id text outcome :=
  ⟨world, List.mem_cons_self, by simp only [Parse.file, prepared]⟩

/-- A parser that was started on a text comes to the outcome of that text. -/
theorem Yields.of_run {call : Call} {past : World α}
    (launched : (past, Action.move revision .launch) ∈ trail)
    (prepared : Parse.prepare past.files past.cache.roots id text =
      (.ok call : Except (Outcome α) Call)) :
    Yields env trail revision id text (Parse.run env.parser id call) :=
  ⟨past, launched, by simp only [Parse.file, prepared]⟩

/-- What a task has read it has read for good. -/
theorem Task.Reads.later (reads : task.Reads env trail text) :
    task.Reads env (moment :: trail) text := by
  unfold Reads at reads ⊢
  split at reads
  · exact reads
  · obtain ⟨past, launched, prepared⟩ := reads
    exact ⟨past, List.mem_cons_of_mem _ launched, prepared⟩
  · exact reads.later
  all_goals trivial

/-- A task that has settled its entry has nothing more to do with the text. -/
theorem Task.Reads.of_settled (settled : task.stage.isUnsettled = false) :
    task.Reads env trail text := by
  obtain ⟨id, revision, stage, aborted⟩ := task
  cases stage with
  | installed => trivial
  | queued | admitted | reading | parsing | parsed | condemned | orphaned => cases settled

/-- A task that was just started has read nothing. -/
theorem Task.Reads.queued (id : Identity) (revision : Nat) :
    (⟨id, revision, .queued, false⟩ : Task α).Reads env trail text := trivial

/-! ## What a step keeps -/

namespace World.Fresh

/-- A step that takes nothing in hand for a file, other than to drop its entry or its tasks, keeps
what is held for it fresh. -/
theorem frame (fresh : world.Fresh env trail id)
    (documents : next.cache.documents.get? id = world.cache.documents.get? id)
    (entries : ∀ held, next.cache.entries.get? id = some held →
      world.cache.entries.get? id = some held)
    (tasks : ∀ task ∈ next.cache.tasks, task.id = id → task ∈ world.cache.tasks)
    (calls : ∀ call ∈ world.calls, call.file? = some id → call ≠ .revise id true →
      call ∈ next.calls) : next.Fresh env (moment :: trail) id := by
  have text : next.cache.text? id = world.cache.text? id := by rw [text?, documents, text?]
  have earlier : ∀ call, call.file? = some id → call ≠ .revise id true → call ∉ next.calls →
      call ∉ world.calls := fun call own news ended begun => ended (calls call begun own news)
  refine ⟨fun told asked kept governed revision outcome entry => ?_,
    fun told kept governed revision entry task member own => ?_⟩
  · rw [Governed, documents] at governed
    rw [text]
    exact (fresh.ready (earlier _ rfl nofun told) (earlier _ rfl nofun asked)
      (earlier _ rfl nofun kept) governed revision outcome (entries _ entry)).later
  · rw [Governed, documents] at governed
    rw [text]
    exact (fresh.pending (earlier _ rfl nofun told) (earlier _ rfl nofun kept) governed revision
      (entries _ entry) task (tasks task member own) own).later

/-- Where neither an outcome is held nor a parse that is neither dirty nor closed, all is fresh. -/
theorem of_nothing
    (ready : ∀ revision outcome, world.cache.entries.get? id ≠ some (.ready revision outcome))
    (pending : ∀ revision, world.cache.entries.get? id ≠ some (.pending revision false false)) :
    world.Fresh env trail id :=
  ⟨fun _ _ _ _ revision outcome entry => absurd entry (ready revision outcome),
    fun _ _ _ revision entry => absurd entry (pending revision)⟩

/-- A file of which a parse was just started is fresh. -/
theorem of_schedule (coherent : world.cache.Coherent) (accepting : world.cache.accepting = true)
    (free : ∀ revision dirty closed,
      world.cache.entries.get? id ≠ some (.pending revision dirty closed))
    (scheduled : next.cache = world.cache.schedule id) : next.Fresh env trail id := by
  refine ⟨fun _ _ _ _ revision outcome entry => ?_, fun _ _ _ revision _ task member own => ?_⟩
  · rw [scheduled, get?_schedule, if_pos rfl] at entry
    cases entry
  · rw [scheduled] at member
    rcases List.mem_append.mp member with member | member
    · -- No other task has still to settle the entry, so none of them has a text to read.
      refine .of_settled (Bool.eq_false_iff.mpr fun unsettled => ?_)
      exact coherent.free_of_no_mark accepting free task member unsettled own
    · rw [List.mem_singleton.mp member]
      exact .queued _ _

/-- Starting a parse of one file does nothing to the others. -/
theorem schedule_elsewhere (fresh : world.Fresh env trail id) {other : Identity} (ne : id ≠ other)
    (scheduled : next.cache = world.cache.schedule other)
    (calls : ∀ call ∈ world.calls, call.file? = some id → call ≠ .revise id true →
      call ∈ next.calls) : next.Fresh env (moment :: trail) id := by
  refine fresh.frame (by rw [scheduled]; rfl) (fun held entry => ?_)
    (fun task member own => ?_) calls
  · rwa [scheduled, get?_schedule, if_neg ne] at entry
  · rw [scheduled] at member
    rcases List.mem_append.mp member with member | member
    · exact member
    · rw [List.mem_singleton.mp member] at own
      exact absurd own.symm ne

/-- Moving a task to another stage keeps its file fresh, if the task goes on with the text it has
read. -/
theorem moveTask (fresh : world.Fresh env trail task.id) (coherent : world.cache.Coherent)
    (member : task ∈ world.cache.tasks) {cache : Cache α} (stage : Stage α)
    (documents : cache.documents = world.cache.documents)
    (entries : cache.entries = world.cache.entries)
    (tasks : cache.tasks = (world.cache.moveTask task.revision stage).tasks)
    (reads : task.Reads env trail (world.cache.text? task.id) →
      { task with stage := stage }.Reads env (moment :: trail) (world.cache.text? task.id)) :
    (world.withCache cache).Fresh env (moment :: trail) task.id := by
  have text : (world.withCache cache).cache.text? task.id = world.cache.text? task.id := by
    rw [text?, withCache, documents, text?]
  refine ⟨fun told asked kept governed revision outcome entry => ?_,
    fun told kept governed revision entry t ht own => ?_⟩
  · rw [Governed, withCache, documents] at governed
    rw [withCache, entries] at entry
    rw [text]
    exact (fresh.ready told asked kept governed revision outcome entry).later
  · rw [Governed, withCache, documents] at governed
    rw [withCache, entries] at entry
    rw [withCache, tasks] at ht
    rw [text]
    have before := fresh.pending told kept governed revision entry
    rcases (coherent.mem_moveTask member).mp ht with rfl | ⟨ht, -⟩
    · exact reads (before task member rfl)
    · exact (before t ht own).later

/-- A step of a task does nothing to other files. -/
theorem taskStep_elsewhere (fresh : world.Fresh env trail id) (coherent : world.cache.Coherent)
    (member : task ∈ world.cache.tasks) {move : Move} {cache : Cache α}
    (taken : TaskStep (env.on world.files) world.cache task move cache) (ne : id ≠ task.id) :
    (world.withCache cache).Fresh env (moment :: trail) id := by
  refine fresh.frame ?_ (fun held entry => ?_) (fun t ht own => ?_) fun _ begun _ _ => begun
  · exact congrArg (Table.get? · id) taken.frame.1
  · rcases taken.entry_cases id with same | ⟨own, -⟩
    · rw [← same]
      exact entry
    · exact absurd own ne
  · rcases coherent.mem_of_taskStep member taken ht with ⟨ht, -⟩ | ⟨stage, rfl, -⟩ | rfl
    · exact ht
    · exact absurd own.symm ne
    · exact absurd own.symm ne

/-- A step of a task keeps its own file fresh. -/
theorem taskStep (fresh : world.Fresh env trail task.id) (coherent : world.cache.Coherent)
    (accepting : world.cache.accepting = true) (member : task ∈ world.cache.tasks) {move : Move}
    {cache : Cache α} (taken : TaskStep (env.on world.files) world.cache task move cache) :
    (world.withCache cache).Fresh env ((world, .move task.revision move) :: trail) task.id := by
  have alive := coherent.unstopped accepting task member
  have dropped : ∀ cache : Cache α, cache.documents = world.cache.documents →
      (∀ held, cache.entries.get? task.id = some held →
        world.cache.entries.get? task.id = some held) →
      cache.tasks = (world.cache.dropTask task.revision).tasks →
      (world.withCache cache).Fresh env ((world, .move task.revision move) :: trail) task.id := by
    intro cache documents entries tasks
    refine fresh.frame (congrArg (Table.get? · task.id) documents) entries ?_
      fun _ begun _ _ => begun
    intro t ht _
    rw [withCache, tasks] at ht
    exact (mem_dropTask.mp ht).1
  cases taken with
  | admitted => exact fresh.moveTask coherent member .admitted rfl rfl rfl fun _ => trivial
  | read => exact fresh.moveTask coherent member (.reading _) rfl rfl rfl fun _ => rfl
  | @unreadable document outcome stage prepared =>
    refine fresh.moveTask coherent member (.parsed _ outcome) rfl rfl rfl fun reads => ?_
    simp only [Task.Reads, stage] at reads
    rw [reads] at prepared
    exact .of_error prepared
  | @launched document call stage prepared =>
    refine fresh.moveTask coherent member (.parsing (document.map Document.uri) call) rfl rfl rfl
      fun reads => ?_
    simp only [Task.Reads, stage] at reads
    rw [reads] at prepared
    exact ⟨world, List.mem_cons_self, prepared⟩
  | @completed uri call roots stage =>
    refine fresh.moveTask coherent member (.parsed uri (Parse.run env.parser task.id call)) rfl rfl
      rfl fun reads => ?_
    simp only [Task.Reads, stage] at reads
    obtain ⟨past, launched, prepared⟩ := reads
    exact .of_run (List.mem_cons_of_mem _ launched) prepared
  | condemned => exact fresh.moveTask coherent member .condemned rfl rfl rfl fun _ => trivial
  | orphaned => exact fresh.moveTask coherent member (.orphaned _) rfl rfl rfl fun _ => trivial
  | lost | rejected | published | stopped => exact dropped _ rfl (fun _ entry => entry) rfl
  | refused | discarded =>
    obtain ⟨entries, discarded⟩ := world.cache.discardPending_eq task.id task.revision
    refine dropped _ ?_ (fun _ => get?_of_discardPending) ?_
    · rw [discarded]
      rfl
    · rw [discarded]
      rfl
  | superseded stage =>
    refine ⟨fun _ _ _ _ revision outcome entry => ?_, fun _ _ _ revision _ t ht own => ?_⟩
    · have mark := (world.cache.get?_schedule task.id task.id).trans (if_pos rfl)
      cases mark.symm.trans entry
    · -- The task was the only one that had still to settle the entry, and it is gone.
      obtain ⟨ht, hne⟩ := mem_dropTask.mp ht
      rcases List.mem_append.mp ht with ht | ht
      · refine .of_settled (Bool.eq_false_iff.mpr fun unsettled => hne ?_)
        exact coherent.sole t ht task member unsettled (by rw [stage]; rfl) own
      · rw [List.mem_singleton.mp ht]
        exact .queued _ _
  | @installed uri outcome stage entry =>
    -- The mark was neither dirty nor closed, so the task has read the text as it is.
    have clean : world.cache.entries.get? task.id = some (.pending task.revision false false) := by
      rcases entry with ⟨dirty, mark, ended⟩ | ⟨older, held, other, -⟩
      · cases dirty with
        | false => exact mark
        | true =>
          rw [ended rfl] at accepting
          cases accepting
      · obtain ⟨dirty, closed, mark⟩ := coherent.holds task member (by rw [stage]; rfl) alive
        rw [other] at mark
        cases mark
    refine ⟨fun told _ kept governed revision stored ready => ?_, fun _ _ _ revision mark => ?_⟩
    · rw [withCache, get?_install, if_pos rfl] at ready
      cases ready
      have reads := fresh.pending told kept governed task.revision clean task member rfl
      simp only [Task.Reads, stage] at reads
      exact reads.later
    · rw [withCache, get?_install, if_pos rfl] at mark
      cases mark

/-- While the only call is about another file, none is about this one. -/
theorem calls_elsewhere (orderly : world.Orderly) {call : Remainder} (begun : call ∈ world.calls)
    {other : Identity} (about : call.file? = some other) (ne : id ≠ other)
    (calls : List Remainder) :
    ∀ found ∈ world.calls, found.file? = some id → found ≠ .revise id true → found ∈ calls := by
  intro found member own
  rw [orderly.calls_eq begun, List.mem_singleton] at member
  rw [member, about] at own
  exact absurd (Option.some.inj own).symm ne

/-- The next step of a call about another file that starts no parse does nothing to this one. -/
theorem call_elsewhere (fresh : world.Fresh env trail id) (orderly : world.Orderly)
    {call : Remainder} (begun : call ∈ world.calls) {other : Identity}
    (about : call.file? = some other) (ne : id ≠ other)
    (documents : next.cache.documents = world.cache.documents)
    (tasks : next.cache.tasks = world.cache.tasks)
    (entries : next.cache.entries.get? id = world.cache.entries.get? id) :
    next.Fresh env (moment :: trail) id := by
  refine fresh.frame (by rw [documents]) (fun held entry => ?_) (fun task member _ => ?_)
    (calls_elsewhere orderly begun about ne _)
  · rwa [entries] at entry
  · rwa [tasks] at member

/-- Recording a text keeps its file fresh: what was held is of the same text, or has still to be
told of another. -/
theorem recorded (fresh : world.Fresh env trail id) (none : world.calls = [])
    (document : Document) :
    (world.begun (.revise id (world.cache.recordDocument id document).2)
      (world.cache.recordDocument id document).1).Fresh env (moment :: trail) id := by
  generalize hu : (world.cache.recordDocument id document).2 = unchanged
  cases unchanged with
  | false =>
    -- The call has still to say that the text has changed.
    exact ⟨fun told => absurd List.mem_cons_self told, fun told => absurd List.mem_cons_self told⟩
  | true =>
    obtain ⟨previous, found, same⟩ := open_of_unchanged hu
    have governed : world.Governed env id := by
      rw [Governed, found]
      exact .inl nofun
    have text : (world.cache.recordDocument id document).1.text? id = world.cache.text? id := by
      rw [text?, get?_recordDocument, if_pos rfl, text?, found, Option.map_some, Option.map_some,
        same]
    have silent : ∀ call, call ∉ world.calls := by
      rw [none]
      exact fun _ => nofun
    refine ⟨fun _ _ _ _ revision outcome entry => ?_,
      fun _ _ _ revision entry task member own => ?_⟩
    · rw [begun, text]
      exact (fresh.ready (silent _) (silent _) (silent _) governed revision outcome entry).later
    · rw [begun, text]
      exact (fresh.pending (silent _) (silent _) governed revision entry task member own).later

/-- Telling a parse on its way of a text keeps its file fresh: it becomes dirty, unless the text is
the one it has read or has still to read. -/
theorem told (fresh : world.Fresh env trail id) (orderly : world.Orderly) {unchanged : Bool}
    {revision : Nat} {dirty closed : Bool} (begun : .revise id unchanged ∈ world.calls)
    (entry : world.cache.entries.get? id = some (.pending revision dirty closed)) :
    (world.finish (.revise id unchanged)
      { world.cache with
        entries := world.cache.entries.insert id
          (.pending revision (dirty || !unchanged) false) }).Fresh env (moment :: trail) id := by
  have mark : (world.cache.entries.insert id
      (.pending revision (dirty || !unchanged) false)).get? id =
      some (.pending revision (dirty || !unchanged) false) := by
    rw [Table.get?_insert, if_pos rfl]
  refine ⟨fun _ _ _ _ revision outcome ready => ?_, fun _ _ governed r clean task member own => ?_⟩
  · change (world.cache.entries.insert id _).get? id = _ at ready
    rw [mark] at ready
    cases ready
  · change (world.cache.entries.insert id _).get? id = _ at clean
    -- A mark that is not dirty now was not so before, and the text is the one before.
    rw [mark, Option.some_inj, Entry.pending.injEq, Bool.or_eq_false_iff] at clean
    obtain ⟨-, ⟨rfl, hu⟩, -⟩ := clean
    obtain rfl : unchanged = true := by simpa using hu
    obtain rfl := orderly.unclosed_of_call begun nofun (orderly.recorded id true begun) entry
    have silent : ∀ call, call ≠ .revise id true → call ∉ world.calls := by
      intro call other found
      rw [orderly.calls_eq begun, List.mem_singleton] at found
      exact other found
    exact (fresh.pending (silent _ nofun) (silent _ nofun) governed revision entry task member
      own).later

/-- Every step keeps what is held for a file fresh. -/
theorem step (fresh : world.Fresh env trail id) (coherent : world.cache.Coherent)
    (accepting : world.cache.accepting = true) (orderly : world.Orderly)
    (turn : action.begins = true → world.calls = []) (taken : LiveStep env world action next) :
    next.Fresh env ((world, action) :: trail) id := by
  cases taken with
  | @task task move cache member taken =>
    by_cases own : id = task.id
    · subst own
      exact fresh.taskStep coherent accepting member taken
    · exact fresh.taskStep_elsewhere coherent member taken own
  | edited | found =>
    exact fresh.frame rfl (fun _ entry => entry) (fun _ member _ => member) fun _ begun _ _ => begun
  | @scheduled _ other asks free =>
    by_cases own : id = other
    · subst own
      exact .of_schedule coherent accepting free rfl
    · exact fresh.schedule_elsewhere own rfl fun _ begun _ _ => begun
  | recorded other document =>
    have none := turn rfl
    by_cases own : id = other
    · subst own
      exact fresh.recorded none document
    · refine fresh.frame ?_ (fun _ entry => entry) (fun _ member _ => member) fun _ begun _ _ => ?_
      · exact (get?_recordDocument ..).trans (if_neg own)
      · rw [none] at begun
        cases begun
  | kept other keeping =>
    by_cases own : id = other
    · -- The document is closed and its outcome stays, whatever text that was of.
      subst own
      have free : ¬ (world.withCache (world.cache.forgetDocument id)).Governed env id := by
        rintro (opened | evicting)
        · exact opened ((get?_forgetDocument ..).trans (if_pos rfl))
        · rw [keeping] at evicting
          cases evicting
      exact ⟨fun _ _ _ governed => absurd governed free, fun _ _ governed => absurd governed free⟩
    · refine fresh.frame ?_ (fun _ entry => entry) (fun _ member _ => member)
        fun _ begun _ _ => begun
      exact (get?_forgetDocument ..).trans (if_neg own)
  | forgotten other =>
    by_cases own : id = other
    · -- What is held is to be dropped.
      subst own
      exact ⟨fun _ _ kept => absurd List.mem_cons_self kept,
        fun _ kept => absurd List.mem_cons_self kept⟩
    · refine fresh.frame ?_ (fun _ entry => entry) (fun _ member _ => member)
        fun _ begun _ _ => List.mem_cons_of_mem _ begun
      exact (get?_forgetDocument ..).trans (if_neg own)
  | @told other unchanged revision dirty closed begun entry =>
    by_cases own : id = other
    · subst own
      exact fresh.told orderly begun entry
    · refine fresh.call_elsewhere orderly begun rfl own rfl rfl ?_
      rw [finish, Table.get?_insert, if_neg own]
  | @good other revision outcome begun entry =>
    refine fresh.frame rfl (fun _ entry => entry) (fun _ member _ => member)
      fun call found own news => ?_
    rw [orderly.calls_eq begun, List.mem_singleton] at found
    subst found
    cases own
    exact absurd rfl news
  | @wanting other unchanged begun stale free =>
    by_cases own : id = other
    · -- The outcome may be of another text, but a parse is about to be asked for.
      subst own
      refine ⟨fun _ asked => ?_, fun _ _ _ revision entry => absurd entry (free _ _ _)⟩
      rw [orderly.goOn_calls begun] at asked
      exact absurd (List.mem_singleton.mpr rfl) asked
    · exact fresh.call_elsewhere orderly begun rfl own rfl rfl rfl
  | @joined other revision dirty closed begun entry =>
    by_cases own : id = other
    · subst own
      refine ⟨fun _ _ _ _ r outcome ready => ?_, fun _ _ governed r clean task member own => ?_⟩
      · change world.cache.entries.get? id = _ at ready
        rw [entry] at ready
        cases ready
      · have silent : ∀ call, call ≠ .request id → call ∉ world.calls := by
          intro call ne found
          rw [orderly.calls_eq begun, List.mem_singleton] at found
          exact ne found
        exact (fresh.pending (silent _ (by rintro ⟨⟩)) (silent _ (by rintro ⟨⟩)) governed r clean
          task member own).later
    · exact fresh.call_elsewhere orderly begun rfl own rfl rfl rfl
  | @started other begun free =>
    by_cases own : id = other
    · subst own
      exact .of_schedule coherent accepting free rfl
    · exact fresh.schedule_elsewhere own rfl
        (calls_elsewhere orderly begun rfl own _)
  | @doomed other revision dirty closed begun entry =>
    by_cases own : id = other
    · subst own
      have mark : (world.cache.entries.insert id (.pending revision false true)).get? id =
          some (.pending revision false true) := by rw [Table.get?_insert, if_pos rfl]
      refine .of_nothing (fun r outcome ready => ?_) fun r clean => ?_
      · cases mark.symm.trans ready
      · cases mark.symm.trans clean
    · refine fresh.call_elsewhere orderly begun rfl own rfl rfl ?_
      rw [finish, Table.get?_insert, if_neg own]
  | @dropped other revision outcome begun entry =>
    by_cases own : id = other
    · subst own
      have gone : (world.cache.entries.erase id).get? id = none := by
        rw [Table.get?_erase, if_pos rfl]
      refine .of_nothing (fun r outcome ready => ?_) fun r clean => ?_
      · cases gone.symm.trans ready
      · cases gone.symm.trans clean
    · refine fresh.call_elsewhere orderly begun rfl own rfl rfl ?_
      rw [finish, Table.get?_erase, if_neg own]
  | @vacant other begun entry =>
    by_cases own : id = other
    · subst own
      refine .of_nothing (fun r outcome ready => ?_) fun r clean => ?_
      · cases entry.symm.trans ready
      · cases entry.symm.trans clean
    · exact fresh.call_elsewhere orderly begun rfl own rfl rfl rfl

end World.Fresh

/-- While parses may be started and calls follow each other, what is held is fresh. -/
theorem Run.fresh (run : Run env world trail) (serial : Serial trail)
    (accepting : world.cache.accepting = true) (id : Identity) : world.Fresh env trail id := by
  refine run.live_induction (motive := fun world trail => world.Fresh env trail id) serial accepting
    (fun files => .of_nothing (fun _ _ => nofun) fun _ => nofun) ?_
  intro world next trail action run serial accepting turn taken fresh
  exact fresh.step run.coherent.cache accepting (run.orderly serial accepting) turn taken

/-! ## What clients are given -/

namespace Engine

variable {engine other : Engine α} {snapshot : Snapshot α}

/-- Looking a file up answers no query. -/
theorem answers_of_consult {answer : Answer α} (consulted : engine.consult id = (other, answer)) :
    other.answers = engine.answers := by
  unfold consult at consulted
  split at consulted <;> cases consulted <;> rfl

/-- A query that is answered with an outcome is answered with the one at hand. -/
theorem cached_of_consult (consulted : engine.consult id = (other, .done (.ok snapshot))) :
    engine.cache.cached? id = some snapshot := by
  unfold consult lookup at consulted
  split at consulted
  · rename_i cache found looked
    cases consulted
    split at looked
    · cases looked
    · rename_i entry
      cases looked
      exact cached?_eq_some.mpr entry
    · unfold start at looked
      split_ifs at looked <;> cases looked
  · cases consulted
  · cases consulted

/-- So it is if it can be answered at once. -/
theorem cached_of_ask {number : Nat} (asked : (engine.ask number id).2 = some (.ok snapshot)) :
    engine.cache.cached? id = some snapshot := by
  unfold ask at asked
  split at asked
  · rename_i other result consulted
    cases asked
    exact cached_of_consult consulted
  · cases asked

/-- So it is if it had to wait. -/
theorem cached_of_resume {query : Query} (resumed : engine.resume query = some other)
    (answered : other.answers = engine.answers ++ [(query.number, .ok snapshot)]) :
    engine.cache.cached? query.handle.id = some snapshot := by
  unfold resume at resumed
  split at resumed
  · cases resumed
  · -- The parse was given up, and the query is told so.
    cases resumed
    cases List.append_cancel_left answered
  · split at resumed
    · rename_i between result consulted
      cases resumed
      change between.answers ++ _ = _ at answered
      rw [answers_of_consult consulted] at answered
      cases List.append_cancel_left answered
      exact cached_of_consult consulted
    · -- The query has to wait again, and nothing is answered.
      rename_i between handle consulted
      cases resumed
      change between.answers = _ at answered
      rw [answers_of_consult consulted, List.self_eq_append_right] at answered
      cases answered

end Engine

/-- While parses may be started and no update or close of a file is half done, though any number of
tasks may be at any stage: the outcome that is held for an open document is that of the text it has
now; if outcomes are dropped when documents are closed, the outcome that is held for a file that is
not open is that of the text on the disk; and a query for an open document that is answered with an
outcome, at once or after it had to wait, is answered with that of the text which the document has
when it is looked up for the last time. -/
theorem outcome_of_current_text (run : Run env world trail) (serial : Serial trail)
    (accepting : world.cache.accepting = true)
    (calm : ∀ call ∈ world.calls, call.file? ≠ some id) :
    (∀ document snapshot, world.cache.documents.get? id = some document →
      world.cache.cached? id = some snapshot →
      Yields env trail snapshot.revision id (some document.text) snapshot.outcome) ∧
    (env.options.evictOnClose = true → world.cache.isOpen id = false → ∀ snapshot,
      world.cache.cached? id = some snapshot →
      Yields env trail snapshot.revision id none snapshot.outcome) ∧
    (∀ document snapshot, world.cache.documents.get? id = some document →
      ∀ engine : Engine α, engine.cache = world.cache →
      ((∃ number, (engine.ask number id).2 = some (.ok snapshot)) ∨
        ∃ query resumed, query.handle.id = id ∧ engine.resume query = some resumed ∧
          resumed.answers = engine.answers ++ [(query.number, .ok snapshot)]) →
      Yields env trail snapshot.revision id (some document.text) snapshot.outcome) := by
  -- No call is about to say that the text of this file has changed, so all that is held is of it.
  have fresh := run.fresh serial accepting id
  have silent : ∀ call, call.file? = some id → call ∉ world.calls :=
    fun call own begun => calm call begun own
  have held : world.Governed env id → ∀ snapshot, world.cache.cached? id = some snapshot →
      Yields env trail snapshot.revision id (world.cache.text? id) snapshot.outcome :=
    fun governed snapshot cached => fresh.ready (silent _ rfl) (silent _ rfl) (silent _ rfl)
      governed _ _ (cached?_eq_some.mp cached)
  have current : ∀ document snapshot, world.cache.documents.get? id = some document →
      world.cache.cached? id = some snapshot →
      Yields env trail snapshot.revision id (some document.text) snapshot.outcome := by
    intro document snapshot found cached
    have yields := held (.inl (by rw [found]; exact nofun)) snapshot cached
    rwa [text?, found] at yields
  refine ⟨current, fun evicting closed snapshot cached => ?_, ?_⟩
  · have yields := held (.inr evicting) snapshot cached
    have none : world.cache.documents.get? id = none := by
      rwa [isOpen, Table.contains, Option.isSome_eq_false_iff, Option.isNone_iff_eq_none] at closed
    rwa [text?, none] at yields
  · rintro document snapshot found engine same (⟨number, asked⟩ | ⟨query, resumed, rfl, went, last⟩)
    · rw [← same] at current found
      exact current document snapshot found (Engine.cached_of_ask asked)
    · rw [← same] at current found
      exact current document snapshot found (Engine.cached_of_resume went last)

/-- A text is changed while its parser is running: the outcome that is held in the end is that of
the second text. -/
theorem outcome_of_current_text_after_edit : ∃ world trail,
    Run (Trial.env 1) world trail ∧ Serial trail ∧ world.cache.accepting = true ∧
    world.calls = [] ∧
    world.cache.documents.get? Trial.file = some (Trial.document "sound") ∧
    world.cache.cached? Trial.file = some ⟨2, .success () []⟩ ∧
    Yields (Trial.env 1) trail 2 Trial.file (some "sound") (.success () []) := by
  obtain ⟨world, trail, run, serial, accepting, none, opened, cached⟩ : ∃ world trail,
      Run (Trial.env 1) world trail ∧ Serial trail ∧ world.cache.accepting = true ∧
      world.calls = [] ∧
      world.cache.documents.get? Trial.file = some (Trial.document "sound") ∧
      world.cache.cached? Trial.file = some ⟨2, .success () []⟩ :=
    ⟨_, _, (Trial.start 1).follow
      [.update Trial.file (Trial.document "unsound"), .proceed (.revise Trial.file false),
        .proceed (.request Trial.file), .move 1 .assignWorker, .move 1 .readDocument,
        .move 1 .launch, .update Trial.file (Trial.document "sound"),
        .proceed (.revise Trial.file false), .move 1 .complete, .move 1 .store,
        .move 2 .assignWorker, .move 2 .readDocument, .move 2 .launch, .move 2 .complete,
        .move 2 .store] rfl, by decide, rfl, rfl, rfl, rfl⟩
  have calm : ∀ call ∈ world.calls, call.file? ≠ some Trial.file := by
    rw [none]
    exact nofun
  exact ⟨world, trail, run, serial, accepting, none, opened, cached,
    (outcome_of_current_text run serial accepting calm).1 _ _ opened cached⟩

end

end DiagnosticServer
