import DiagnosticServer.Proofs.Cache.Serial

/-!
# Reopened documents

A document that is opened again while its last parse is on its way joins that parse, which is then
dirty and no longer closed, and another one follows it. The task sees that a document was closed in
one step and drops the entry in another, though, and looks at nothing but the revision in the
second. If the document is opened again between the two, the entry is dropped all the same, and the
document is left without an outcome and without a parse that would bring one.

`open_documents_assured_iff` shows that this is the only way in which an open document can lose its
parse, and `reopened_document_without_parse` is a run on which it does.
-/

namespace DiagnosticServer

variable {α : Type}

open Cache

/-- Whether a step tells a parse of a text although its task has already seen the document closed
and is about to drop the entry. -/
def Revives (world : World α) : Action → Prop
  | .proceed (.revise id _) =>
    ∃ task ∈ world.cache.tasks, task.id = id ∧ task.stage = .condemned
  | _ => False

instance (stage : Stage α) : Decidable (stage = .condemned) :=
  match stage with
  | .condemned => isTrue rfl
  | .queued | .admitted | .reading _ | .parsing _ _ | .parsed _ _ | .installed _ _
  | .orphaned _ => isFalse nofun

instance (world : World α) : DecidablePred (Revives world)
  | .proceed (.revise id _) => inferInstanceAs
    (Decidable (∃ task ∈ world.cache.tasks, task.id = id ∧ task.stage = .condemned))
  | .proceed (.request _) | .proceed (.evict _) | .proceed .stopAdmitting | .proceed (.abandon _)
  | .edit _ | .update _ _ | .close _ | .request _ | .look _ | .shutdown | .sweep _ _
  | .move _ _ => isFalse id

/-- Whether an outcome is held for a file, or a parse is on its way that is not about to be dropped.
-/
def Cache.Assures (cache : Cache α) (id : Identity) : Prop :=
  (∃ revision outcome, cache.entries.get? id = some (.ready revision outcome)) ∨
    ∃ revision dirty closed, cache.entries.get? id = some (.pending revision dirty closed) ∧
      ∀ task ∈ cache.tasks, task.revision = revision → task.stage ≠ .condemned

/-- No open document has lost its parse, or is about to lose it. -/
structure World.Steady (world : World α) : Prop where
  /-- A task that is about to drop its entry finds it marked as closed. -/
  doomed : ∀ task ∈ world.cache.tasks, task.stage = .condemned → ∀ dirty closed,
    world.cache.entries.get? task.id = some (.pending task.revision dirty closed) → closed = true
  /-- An open document has an entry, unless a call is about to see to it. -/
  present : ∀ id, world.cache.documents.get? id ≠ none →
    (∀ unchanged, .revise id unchanged ∉ world.calls) → .request id ∉ world.calls →
    world.cache.entries.get? id ≠ none

section

variable {env : Environment α} {world next : World α} {trail : List (World α × Action)}
  {action : Action} {task : Task α} {id : Identity}

namespace World.Steady

/-- Nobody is about to drop an entry if the tasks stay as they are and their marks do so too or are
closed. -/
theorem doomed_of_same (steady : world.Steady) (tasks : next.cache.tasks = world.cache.tasks)
    (entries : ∀ id revision dirty closed,
      next.cache.entries.get? id = some (.pending revision dirty closed) →
      world.cache.entries.get? id = some (.pending revision dirty closed) ∨ closed = true) :
    ∀ task ∈ next.cache.tasks, task.stage = .condemned → ∀ dirty closed,
      next.cache.entries.get? task.id = some (.pending task.revision dirty closed) →
      closed = true := by
  intro task member stage dirty closed entry
  rw [tasks] at member
  rcases entries _ _ _ _ entry with same | ended
  · exact steady.doomed task member stage dirty closed same
  · exact ended

/-- Starting a parse leaves no task about to drop an entry that was not. -/
theorem doomed_of_schedule (steady : world.Steady) (coherent : world.cache.Coherent)
    (scheduled : next.cache = world.cache.schedule id) :
    ∀ task ∈ next.cache.tasks, task.stage = .condemned → ∀ dirty closed,
      next.cache.entries.get? task.id = some (.pending task.revision dirty closed) →
      closed = true := by
  intro task member stage dirty closed entry
  rw [scheduled] at member entry
  rcases List.mem_append.mp member with member | member
  · rw [get?_schedule] at entry
    split_ifs at entry with own
    · -- The mark is that of the new parse, whose revision no task before it has.
      have known := coherent.revision_le member
      rw [Option.some_inj, Entry.pending.injEq] at entry
      omega
    · exact steady.doomed task member stage dirty closed entry
  · rw [List.mem_singleton.mp member] at stage
    cases stage

/-- A step of a task leaves no other task about to drop an entry that is not closed. -/
theorem doomed_of_taskStep (steady : world.Steady) (coherent : world.cache.Coherent)
    (member : task ∈ world.cache.tasks) {move : Move} {cache : Cache α}
    (taken : TaskStep (env.on world.files) world.cache task move cache) :
    ∀ t ∈ cache.tasks, t.stage = .condemned → ∀ dirty closed,
      cache.entries.get? t.id = some (.pending t.revision dirty closed) → closed = true := by
  intro t ht stage dirty closed entry
  rcases coherent.condemned_of_taskStep member taken ht stage with ⟨ht, -⟩ | ⟨rfl, same, _, mark⟩
  · rcases taken.entry_cases t.id with same | ⟨-, ⟨gone, -⟩ | ⟨fresh, -⟩ | ⟨_, _, _, stored, -⟩⟩
    · rw [same] at entry
      exact steady.doomed t ht stage dirty closed entry
    · rw [gone] at entry
      cases entry
    · -- No task before it has the revision of the new parse.
      have known := coherent.revision_le ht
      rw [fresh, Option.some_inj, Entry.pending.injEq] at entry
      omega
    · rw [stored] at entry
      cases entry
  · rw [same] at entry
    change world.cache.entries.get? task.id = some (.pending task.revision dirty closed) at entry
    rw [mark] at entry
    cases entry
    rfl

/-- A step of a task takes no entry from an open document. -/
theorem present_of_taskStep (steady : world.Steady) (coherent : world.Coherent)
    (accepting : world.cache.accepting = true) (orderly : world.Orderly)
    (member : task ∈ world.cache.tasks) {move : Move} {cache : Cache α}
    (taken : TaskStep (env.on world.files) world.cache task move cache)
    (opened : world.cache.documents.get? id ≠ none)
    (told : ∀ unchanged, .revise id unchanged ∉ world.calls) (asked : .request id ∉ world.calls) :
    cache.entries.get? id ≠ none := by
  rcases taken.entry_cases id with
    same | ⟨rfl, ⟨-, admitting | stage⟩ | ⟨fresh, -⟩ | ⟨_, _, _, stored, -⟩⟩
  · rw [same]
    exact steady.present id opened told asked
  · rw [coherent.admitting accepting] at admitting
    cases admitting
  · -- The task has seen that the document was closed, but the mark of an open one is not closed.
    obtain ⟨dirty, closed, entry⟩ := coherent.cache.holds task member (by rw [stage]; rfl)
      (coherent.cache.unstopped accepting task member)
    have doomed := steady.doomed task member stage dirty closed entry
    have unclosed := orderly.unclosed task.id task.revision dirty closed (told false) opened entry
    rw [doomed] at unclosed
    cases unclosed
  · rw [fresh]
    exact nofun
  · rw [stored]
    exact nofun

/-- While the only call is about another file, an open document has an entry. -/
theorem present_elsewhere (steady : world.Steady) (orderly : world.Orderly) {call : Remainder}
    (begun : call ∈ world.calls) {other : Identity} (about : call.file? = some other)
    (ne : id ≠ other) (opened : world.cache.documents.get? id ≠ none) :
    world.cache.entries.get? id ≠ none := by
  have silent : ∀ found : Remainder, found.file? = some id → found ∉ world.calls := by
    intro found own member
    rw [orderly.calls_eq begun, List.mem_singleton] at member
    rw [member, about] at own
    exact ne (Option.some.inj own).symm
  exact steady.present id opened (fun unchanged => silent _ rfl) (silent _ rfl)

/-- While no call is half done, an open document has an entry. -/
theorem present_of_no_calls (steady : world.Steady) (none : world.calls = [])
    (opened : world.cache.documents.get? id ≠ Option.none) :
    world.cache.entries.get? id ≠ Option.none := by
  refine steady.present id opened (fun unchanged => ?_) ?_ <;> rw [none] <;> exact nofun

/-- Starting a parse takes no entry away. -/
theorem present_of_schedule {cache : Cache α} (other : Identity)
    (present : id ≠ other → cache.entries.get? id ≠ none) :
    (cache.schedule other).entries.get? id ≠ none := by
  rw [get?_schedule]
  split_ifs with own
  · exact Option.some_ne_none _
  · exact present own

/-- Every step that revives no parse keeps the open documents from losing theirs. -/
theorem step (steady : world.Steady) (coherent : world.Coherent)
    (accepting : world.cache.accepting = true) (orderly : world.Orderly)
    (turn : action.begins = true → world.calls = []) (taken : LiveStep env world action next)
    (sober : ¬ Revives world action) : next.Steady := by
  cases taken with
  | @task task move cache member taken =>
    refine ⟨steady.doomed_of_taskStep coherent.cache member taken, fun id opened told asked => ?_⟩
    rw [withCache, taken.frame.1] at opened
    exact steady.present_of_taskStep coherent accepting orderly member taken opened told asked
  | edited => exact ⟨steady.doomed, steady.present⟩
  | found => exact steady
  | scheduled =>
    exact ⟨steady.doomed_of_schedule coherent.cache rfl, fun id opened told asked =>
      present_of_schedule _ fun _ => steady.present id opened told asked⟩
  | recorded other document =>
    refine ⟨steady.doomed_of_same rfl fun _ _ _ _ entry => .inl entry, fun id opened told _ => ?_⟩
    have ne : id ≠ other := by
      rintro rfl
      exact told _ List.mem_cons_self
    rw [begun, get?_recordDocument, if_neg ne] at opened
    exact steady.present_of_no_calls (turn rfl) opened
  | kept other =>
    exact ⟨steady.doomed_of_same rfl fun _ _ _ _ entry => .inl entry, fun id opened _ _ =>
      steady.present_of_no_calls (turn rfl) (open_of_forgetDocument opened)⟩
  | forgotten other =>
    exact ⟨steady.doomed_of_same rfl fun _ _ _ _ entry => .inl entry, fun id opened _ _ =>
      steady.present_of_no_calls (turn rfl) (open_of_forgetDocument opened)⟩
  | @told other unchanged revision dirty closed begun entry =>
    refine ⟨fun task member stage d c mark => ?_, fun id opened _ _ => ?_⟩
    · rw [finish, Table.get?_insert] at mark
      split_ifs at mark with own
      · -- The step would have revived the parse of this task.
        exact absurd ⟨task, member, own, stage⟩ sober
      · exact steady.doomed task member stage d c mark
    · rw [finish, Table.get?_insert]
      split_ifs with own
      · exact Option.some_ne_none _
      · exact steady.present_elsewhere orderly begun rfl own opened
  | @good other revision outcome begun entry =>
    refine ⟨steady.doomed_of_same rfl fun _ _ _ _ mark => .inl mark, fun id opened _ _ => ?_⟩
    by_cases own : id = other
    · rw [own]
      exact fun gone => absurd (entry.symm.trans gone) (Option.some_ne_none _)
    · exact steady.present_elsewhere orderly begun rfl own opened
  | @wanting other unchanged begun =>
    refine ⟨steady.doomed_of_same rfl fun _ _ _ _ mark => .inl mark, fun id opened _ asked => ?_⟩
    have ne : id ≠ other := by
      rintro rfl
      exact asked List.mem_cons_self
    exact steady.present_elsewhere orderly begun rfl ne opened
  | @joined other revision dirty closed begun entry =>
    refine ⟨steady.doomed_of_same rfl fun _ _ _ _ mark => .inl mark, fun id opened _ _ => ?_⟩
    by_cases own : id = other
    · rw [own]
      exact fun gone => absurd (entry.symm.trans gone) (Option.some_ne_none _)
    · exact steady.present_elsewhere orderly begun rfl own opened
  | @started other begun =>
    exact ⟨steady.doomed_of_schedule coherent.cache rfl, fun id opened _ _ =>
      present_of_schedule _ fun own => steady.present_elsewhere orderly begun rfl own opened⟩
  | @doomed other revision dirty closed begun entry =>
    refine ⟨steady.doomed_of_same rfl fun id r d c mark => ?_, fun id opened _ _ => ?_⟩
    · rw [finish, Table.get?_insert] at mark
      split_ifs at mark
      · cases mark
        exact .inr rfl
      · exact .inl mark
    · rw [finish, Table.get?_insert]
      split_ifs with own
      · exact Option.some_ne_none _
      · exact steady.present_elsewhere orderly begun rfl own opened
  | @dropped other revision outcome begun entry =>
    refine ⟨steady.doomed_of_same rfl fun id r d c mark => ?_, fun id opened _ _ => ?_⟩
    · rw [finish, Table.get?_erase] at mark
      split_ifs at mark
      exact .inl mark
    · rw [finish, Table.get?_erase]
      split_ifs with own
      · rw [own] at opened
        exact absurd (orderly.forgotten other begun) opened
      · exact steady.present_elsewhere orderly begun rfl own opened
  | @vacant other begun entry =>
    refine ⟨steady.doomed_of_same rfl fun _ _ _ _ mark => .inl mark, fun id opened _ _ => ?_⟩
    by_cases own : id = other
    · rw [own] at opened
      exact absurd (orderly.forgotten other begun) opened
    · exact steady.present_elsewhere orderly begun rfl own opened

/-- While no call is half done, every open document has an outcome or a parse that brings one. -/
theorem assures (steady : world.Steady) (coherent : world.cache.Coherent) (orderly : world.Orderly)
    (none : world.calls = []) (opened : world.cache.isOpen id = true) : world.cache.Assures id := by
  have found : world.cache.documents.get? id ≠ Option.none := by
    intro closed
    rw [isOpen, Table.contains, closed] at opened
    cases opened
  cases entry : world.cache.entries.get? id with
  | none => exact absurd entry (steady.present_of_no_calls none found)
  | some held =>
    cases held with
    | ready revision outcome => exact .inl ⟨revision, outcome, entry⟩
    | pending revision dirty closed =>
      refine .inr ⟨revision, dirty, closed, entry, ?_⟩
      rintro task member rfl stage
      obtain rfl := coherent.eq_of_mark member entry
      have doomed := steady.doomed task member stage dirty closed entry
      have unclosed := orderly.unclosed_of_no_calls none found entry
      rw [doomed] at unclosed
      cases unclosed

end World.Steady

/-- A run on which no parse was revived keeps the open documents from losing theirs. -/
theorem Run.steady (run : Run env world trail) (serial : Serial trail)
    (accepting : world.cache.accepting = true)
    (sober : ∀ moment ∈ trail, ¬ Revives moment.1 moment.2) : world.Steady := by
  refine run.live_induction
    (motive := fun world trail => (∀ moment ∈ trail, ¬ Revives moment.1 moment.2) → world.Steady)
    serial accepting (fun files _ => ⟨nofun, fun _ => absurd rfl⟩) ?_ sober
  intro world next trail action run serial accepting turn taken steady sober
  have before := steady fun moment past => sober moment (List.mem_cons_of_mem _ past)
  exact before.step run.coherent accepting (run.orderly serial accepting) turn taken
    (sober _ List.mem_cons_self)

/-! ## After a document was opened again -/

/-- What is held for a file belongs to a parse with a revision above that one. -/
def Cache.HoldsAbove (cache : Cache α) (id : Identity) (last : Nat) : Prop :=
  ∃ later, last < later ∧
    ((∃ dirty, cache.entries.get? id = some (.pending later dirty false)) ∨
      ∃ outcome, cache.entries.get? id = some (.ready later outcome))

/-- A document was opened again while the parse with that revision was on its way, when `last` was
the last revision, and has been open since: that parse goes on until another one takes its place. -/
structure World.Rejoined (world : World α) (id : Identity) (revision last : Nat) : Prop where
  /-- The document is open. -/
  opened : world.cache.documents.get? id ≠ none
  /-- No task is about to drop the entry. -/
  safe : ∀ task ∈ world.cache.tasks, task.id = id → task.stage ≠ .condemned
  /-- Parses that are started now have a revision above `last`. -/
  bound : last ≤ world.cache.lastRevision
  /-- The parse is on its way, dirty and not closed, or another one has taken its place. -/
  entry : world.cache.entries.get? id = some (.pending revision true false) ∨
    world.cache.HoldsAbove id last

namespace World.Rejoined

variable {revision last : Nat}

/-- The entry is not marked as closed. -/
theorem unclosed (rejoined : world.Rejoined id revision last) {r : Nat} {dirty closed : Bool}
    (entry : world.cache.entries.get? id = some (.pending r dirty closed)) : closed = false := by
  rcases rejoined.entry with mark | ⟨later, -, ⟨dirty', mark⟩ | ⟨outcome, held⟩⟩
  · rw [mark] at entry
    cases entry
    rfl
  · rw [mark] at entry
    cases entry
    rfl
  · rw [held] at entry
    cases entry

/-- Only the documents, the entries, the tasks and the last revision matter. -/
theorem congr (rejoined : world.Rejoined id revision last)
    (opened : next.cache.documents.get? id ≠ none)
    (entries : next.cache.entries.get? id = world.cache.entries.get? id)
    (tasks : next.cache.tasks = world.cache.tasks)
    (lastRevision : next.cache.lastRevision = world.cache.lastRevision) :
    next.Rejoined id revision last := by
  obtain ⟨-, safe, bound, entry⟩ := rejoined
  refine ⟨opened, ?_, ?_, ?_⟩
  · rwa [tasks]
  · rwa [lastRevision]
  · rwa [HoldsAbove, entries]

/-- A parse that is started takes the place of what was held for its file. -/
theorem schedule (rejoined : world.Rejoined id revision last) {other : Identity}
    (documents : next.cache.documents = world.cache.documents)
    (scheduled : next.cache = world.cache.schedule other) : next.Rejoined id revision last := by
  have entries : next.cache.entries.get? id =
      if id = other then some (.pending (world.cache.lastRevision + 1) false false)
      else world.cache.entries.get? id := by
    rw [scheduled]
    exact get?_schedule ..
  have known := rejoined.bound
  refine ⟨by rw [documents]; exact rejoined.opened, fun task member own => ?_, ?_, ?_⟩
  · rw [scheduled] at member
    rcases List.mem_append.mp member with member | member
    · exact rejoined.safe task member own
    · rw [List.mem_singleton.mp member]
      exact nofun
  · rw [scheduled]
    exact Nat.le_succ_of_le known
  · rw [HoldsAbove, entries]
    split_ifs with own
    · exact .inr ⟨_, Nat.lt_succ_of_le known, .inl ⟨false, rfl⟩⟩
    · exact rejoined.entry

/-- A step of a task keeps the parse on its way, or puts another one in its place. -/
theorem taskStep (rejoined : world.Rejoined id revision last) (coherent : world.Coherent)
    (accepting : world.cache.accepting = true) (member : task ∈ world.cache.tasks) {move : Move}
    {cache : Cache α} (taken : TaskStep (env.on world.files) world.cache task move cache) :
    (world.withCache cache).Rejoined id revision last := by
  have known := rejoined.bound
  refine ⟨?_, fun t ht own stage => ?_, Nat.le_trans known taken.lastRevision_le, ?_⟩
  · rw [withCache, taken.frame.1]
    exact rejoined.opened
  · rcases coherent.cache.condemned_of_taskStep member taken ht stage with
      ⟨ht, -⟩ | ⟨rfl, -, dirty, entry⟩
    · exact rejoined.safe t ht own stage
    · -- A task that sees its document closed finds the mark of its parse closed.
      change task.id = id at own
      rw [own] at entry
      cases rejoined.unclosed entry
  · change cache.entries.get? id = _ ∨ cache.HoldsAbove id last
    rcases taken.entry_cases id with
      same | ⟨rfl, ⟨-, admitting | stage⟩ | ⟨fresh, -⟩ | ⟨uri, outcome, stage, stored, clean⟩⟩
    · rw [HoldsAbove, same]
      exact rejoined.entry
    · rw [coherent.admitting accepting] at admitting
      cases admitting
    · exact absurd stage (rejoined.safe task member rfl)
    · exact .inr ⟨_, Nat.lt_succ_of_le known, .inl ⟨false, fresh⟩⟩
    · -- The outcome is stored by the parse whose mark was there, and that one was not dirty.
      obtain ⟨dirty, closed, own⟩ := coherent.cache.holds task member (by rw [stage]; rfl)
        (coherent.cache.unstopped accepting task member)
      rcases rejoined.entry with mark | ⟨later, above, ⟨dirty', mark⟩ | ⟨held, ready⟩⟩
      · rw [mark] at own
        cases own
        exact absurd mark (clean accepting)
      · rw [mark] at own
        cases own
        exact .inr ⟨_, above, .inr ⟨outcome, stored⟩⟩
      · rw [ready] at own
        cases own

/-- Every step but that of closing the document keeps the parse on its way, or puts another one in
its place. -/
theorem step (rejoined : world.Rejoined id revision last) (coherent : world.Coherent)
    (accepting : world.cache.accepting = true) (orderly : world.Orderly)
    (taken : LiveStep env world action next) (open_ : action ≠ .close id) :
    next.Rejoined id revision last := by
  have elsewhere : ∀ other, .evict other ∈ world.calls → id ≠ other := by
    rintro other begun rfl
    exact rejoined.opened (orderly.forgotten id begun)
  have forgotten : ∀ other, id ≠ other →
      (world.cache.forgetDocument other).documents.get? id ≠ none := by
    intro other ne
    rw [get?_forgetDocument, if_neg ne]
    exact rejoined.opened
  cases taken with
  | task member taken => exact rejoined.taskStep coherent accepting member taken
  | edited => exact rejoined.congr rejoined.opened rfl rfl rfl
  | found => exact rejoined
  | scheduled => exact rejoined.schedule rfl rfl
  | recorded other document =>
    refine rejoined.congr ?_ rfl rfl rfl
    rw [begun, get?_recordDocument]
    split_ifs
    · exact Option.some_ne_none _
    · exact rejoined.opened
  | kept other | forgotten other =>
    refine rejoined.congr (forgotten other ?_) rfl rfl rfl
    rintro rfl
    exact open_ rfl
  | @told other unchanged r dirty closed begun entry =>
    refine ⟨rejoined.opened, rejoined.safe, rejoined.bound, ?_⟩
    rw [HoldsAbove, finish, Table.get?_insert]
    split_ifs with own
    · subst own
      rcases rejoined.entry with mark | ⟨later, above, ⟨dirty', mark⟩ | ⟨held, ready⟩⟩
      · rw [mark] at entry
        cases entry
        exact .inl rfl
      · rw [mark] at entry
        cases entry
        exact .inr ⟨_, above, .inl ⟨_, rfl⟩⟩
      · rw [ready] at entry
        cases entry
    · exact rejoined.entry
  | good | wanting | joined => exact rejoined.congr rejoined.opened rfl rfl rfl
  | started => exact rejoined.schedule rfl rfl
  | @doomed other r dirty closed begun entry =>
    refine rejoined.congr rejoined.opened ?_ rfl rfl
    rw [finish, Table.get?_insert, if_neg (elsewhere other begun)]
  | @dropped other r outcome begun entry =>
    refine rejoined.congr rejoined.opened ?_ rfl rfl
    rw [finish, Table.get?_erase, if_neg (elsewhere other begun)]
  | vacant => exact rejoined.congr rejoined.opened rfl rfl rfl

/-- Telling a closed parse of a text makes it dirty and no longer closed, since the document was not
open before. -/
theorem of_told {unchanged dirty : Bool} (orderly : world.Orderly)
    (taken : LiveStep env world (.proceed (.revise id unchanged)) next)
    (entry : world.cache.entries.get? id = some (.pending revision dirty true))
    (sober : ¬ Revives world (.proceed (.revise id unchanged))) :
    next.Rejoined id revision world.cache.lastRevision := by
  have safe : ∀ task ∈ world.cache.tasks, task.id = id → task.stage ≠ .condemned :=
    fun task member own stage => sober ⟨task, member, own, stage⟩
  cases taken with
  | @told _ _ r d c begun mark =>
    have opened := orderly.recorded id unchanged begun
    cases unchanged with
    | true =>
      -- The document was open before, and the mark of an open document is not closed.
      cases orderly.unclosed_of_call begun nofun opened entry
    | false =>
      rw [mark] at entry
      cases entry
      refine ⟨opened, safe, Nat.le_refl _, .inl ?_⟩
      rw [finish, Table.get?_insert, if_pos rfl, Bool.not_false, Bool.or_true]
  | good _ held =>
    rw [held] at entry
    cases entry
  | wanting _ _ free => exact absurd entry (free _ _ _)
  | found asks | scheduled asks => rcases asks with asks | asks <;> cases asks

end World.Rejoined

/-- A parse that a reopened document joins goes on, or another one takes its place, until the
document is closed. -/
theorem Run.rejoined (run : Run env world trail) (serial : Serial trail)
    (accepting : world.cache.accepting = true) {after before : List (World α × Action)}
    {reopened : World α} {unchanged dirty : Bool} {revision : Nat}
    (split : trail = after ++ (reopened, .proceed (.revise id unchanged)) :: before)
    (entry : reopened.cache.entries.get? id = some (.pending revision dirty true))
    (sober : ¬ Revives reopened (.proceed (.revise id unchanged)))
    (open_ : ∀ moment ∈ after, moment.2 ≠ .close id) :
    world.Rejoined id revision reopened.cache.lastRevision := by
  -- By induction on the run: the part of it after the reopening grows, that before it stays.
  revert after
  refine run.live_induction (motive := fun world trail => ∀ {after},
    trail = after ++ (reopened, .proceed (.revise id unchanged)) :: before →
    (∀ moment ∈ after, moment.2 ≠ .close id) →
    world.Rejoined id revision reopened.cache.lastRevision) serial accepting ?_ ?_
  · intro files after split
    cases after <;> cases split
  · intro world next trail action run serial accepting turn taken ih after split open_
    have orderly := run.orderly serial accepting
    cases after with
    | nil =>
      cases split
      exact .of_told orderly taken entry sober
    | cons moment after =>
      cases split
      have rejoined := ih rfl fun moment past => open_ moment (List.mem_cons_of_mem _ past)
      exact rejoined.step run.coherent accepting orderly taken (open_ _ List.mem_cons_self)

/-! ## When open documents lose their parses -/

/-- A parse that is revived is about to be dropped, though its document is open and no call is half
done. -/
theorem not_assures_of_revives (coherent : world.cache.Coherent)
    (accepting : world.cache.accepting = true) (orderly : world.Orderly)
    (taken : World.LiveStep env world action next) (revives : Revives world action) :
    next.calls = [] ∧ ∃ id, next.cache.isOpen id = true ∧ ¬ next.cache.Assures id := by
  match action, revives with
  | .proceed (.revise _ unchanged), ⟨task, member, rfl, stage⟩ =>
  obtain ⟨dirty, closed, entry⟩ := coherent.holds task member (by rw [stage]; rfl)
    (coherent.unstopped accepting task member)
  cases taken with
  | @told _ _ revision _ _ begun mark =>
    rw [entry] at mark
    cases mark
    have found := orderly.recorded task.id unchanged begun
    refine ⟨orderly.finish_calls begun _, task.id, ?_, ?_⟩
    · rw [isOpen, Table.contains]
      exact Option.isSome_iff_ne_none.mpr found
    · -- The entry is the mark of the task, and the task is about to drop it.
      have own : (world.cache.entries.insert task.id
          (.pending task.revision (dirty || !unchanged) false)).get? task.id =
          some (.pending task.revision (dirty || !unchanged) false) := by
        rw [Table.get?_insert, if_pos rfl]
      rintro (⟨r, outcome, ready⟩ | ⟨r, d, c, mark, kept⟩)
      · exact absurd (own.symm.trans ready) nofun
      · have same := Option.some.inj (own.symm.trans mark)
        cases same
        exact kept task member rfl stage
  | good _ held =>
    rw [held] at entry
    cases entry
  | wanting _ _ free => exact absurd entry (free _ _ _)
  | found asks | scheduled asks => rcases asks with asks | asks <;> cases asks

/-- While parses may be started and calls follow each other, though steps of tasks fall anywhere: at
every time at which no call was half done every open document had an outcome, or a parse on its way
that was not about to be dropped, if and only if no document was opened again between the moment at
which the task of its last parse saw it closed and the moment at which that task dropped the entry.
And where a reopened document joined a closed parse otherwise, its entry belongs to that parse, no
longer closed, or to one that was started afterwards, until the document is closed again. -/
theorem open_documents_assured_iff (run : Run env world trail) (serial : Serial trail)
    (accepting : world.cache.accepting = true) :
    ((∀ past ∈ world :: trail.map Prod.fst, past.calls = [] →
      ∀ id, past.cache.isOpen id = true → past.cache.Assures id) ↔
      ∀ moment ∈ trail, ¬ Revives moment.1 moment.2) ∧
    ∀ after before reopened id unchanged revision dirty,
      trail = after ++ (reopened, .proceed (.revise id unchanged)) :: before →
      reopened.cache.entries.get? id = some (.pending revision dirty true) →
      ¬ Revives reopened (.proceed (.revise id unchanged)) →
      (∀ moment ∈ after, moment.2 ≠ .close id) →
      (∃ dirty, world.cache.entries.get? id = some (.pending revision dirty false)) ∨
        world.cache.HoldsAbove id reopened.cache.lastRevision := by
  refine ⟨⟨fun assured moment member revives => ?_, fun sober past found none id opened => ?_⟩, ?_⟩
  · obtain ⟨before, earlier, serial, -, accepting, next, found, taken⟩ :=
      run.live_past serial accepting member
    obtain ⟨none, id, opened, lost⟩ := not_assures_of_revives earlier.coherent.cache accepting
      (earlier.orderly serial accepting) taken revives
    exact lost (assured next found none id opened)
  · rcases List.mem_cons.mp found with rfl | found
    · exact (run.steady serial accepting sober).assures run.coherent.cache
        (run.orderly serial accepting) none opened
    · obtain ⟨moment, member, rfl⟩ := List.mem_map.mp found
      obtain ⟨before, earlier, serial, within, accepting, -⟩ :=
        run.live_past serial accepting member
      have steady := earlier.steady serial accepting fun moment past => sober moment (within past)
      exact steady.assures earlier.coherent.cache (earlier.orderly serial accepting) none opened
  · intro after before reopened id unchanged revision dirty split entry sober open_
    rcases (run.rejoined serial accepting split entry sober open_).entry with mark | above
    · exact .inl ⟨true, mark⟩
    · exact .inr above

/-- A document is closed and opened again while its parser is running: its parse is not lost. -/
theorem open_documents_assured_after_reopening : ∃ world trail,
    Run (Trial.env 1) world trail ∧ Serial trail ∧ world.cache.accepting = true ∧
    (∀ moment ∈ trail, ¬ Revives moment.1 moment.2) ∧
    ∀ past ∈ world :: trail.map Prod.fst, past.calls = [] →
      ∀ id, past.cache.isOpen id = true → past.cache.Assures id := by
  obtain ⟨world, trail, run, serial, accepting, sober⟩ : ∃ world trail,
      Run (Trial.env 1) world trail ∧ Serial trail ∧ world.cache.accepting = true ∧
      ∀ moment ∈ trail, ¬ Revives moment.1 moment.2 :=
    ⟨_, _, (Trial.start 1).follow
      [.update Trial.file (Trial.document "sound"), .proceed (.revise Trial.file false),
        .proceed (.request Trial.file), .move 1 .assignWorker, .move 1 .readDocument,
        .move 1 .launch, .close Trial.file, .proceed (.evict Trial.file),
        .update Trial.file (Trial.document "sound"), .proceed (.revise Trial.file false),
        .move 1 .complete, .move 1 .store, .move 2 .assignWorker] rfl,
      by decide, rfl, by decide⟩
  exact ⟨world, trail, run, serial, accepting, sober,
    (open_documents_assured_iff run serial accepting).1.mpr sober⟩

/-- A document is closed while its parser is running and opened again after the task has seen that:
in the end it is open, and there is neither an outcome nor a parse on its way. -/
theorem reopened_document_without_parse : ∃ world trail,
    Run (Trial.env 1) world trail ∧ Serial trail ∧ world.cache.accepting = true ∧
    world.calls = [] ∧ world.cache.isOpen Trial.file = true ∧
    world.cache.entries.get? Trial.file = none ∧ world.cache.tasks = [] ∧
    ¬ world.cache.Assures Trial.file := by
  refine ⟨_, _, (Trial.start 1).follow
    [.update Trial.file (Trial.document "sound"), .proceed (.revise Trial.file false),
      .proceed (.request Trial.file), .move 1 .assignWorker, .move 1 .readDocument, .move 1 .launch,
      .move 1 .complete, .close Trial.file, .proceed (.evict Trial.file), .move 1 .store,
      .update Trial.file (Trial.document "sound"), .proceed (.revise Trial.file false),
      .move 1 .discard] rfl, by decide, rfl, rfl, rfl, rfl, rfl, ?_⟩
  rintro (⟨_, _, held⟩ | ⟨_, _, _, mark, -⟩)
  · cases held
  · cases mark

end

end DiagnosticServer
