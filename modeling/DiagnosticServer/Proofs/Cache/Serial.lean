import DiagnosticServer.Proofs.Cache.Discipline

/-!
# One call at a time

While parses may be started and no call begins before the one before it is over, the steps of a run
are fewer than in general and more can be said of each. `LiveStep` lists them. What follows is shown
by going through that list: at most one call is half done, a call that has recorded a text finds the
document open and one that has forgotten a text finds it closed, and the parse of an open document
is not marked as closed unless the call that opened it is half done.
-/

namespace DiagnosticServer

variable {α : Type}

open Cache

namespace Cache

/-! ## What the operations of the cache can do -/

variable {cache : Cache α}

/-- While parses may be started, a request joins a parse on its way or starts one. -/
theorem requestParse_of_accepting (accepting : cache.accepting = true) (id : Identity) :
    ((∃ revision dirty closed, cache.entries.get? id = some (.pending revision dirty closed)) ∧
      (cache.requestParse id).1 = cache) ∨
    ((∀ revision dirty closed, cache.entries.get? id ≠ some (.pending revision dirty closed)) ∧
      (cache.requestParse id).1 = cache.schedule id) := by
  unfold requestParse
  split
  · exact .inl ⟨⟨_, _, _, ‹_›⟩, rfl⟩
  · rename_i other
    rw [start, if_pos accepting]
    exact .inr ⟨other, rfl⟩

/-- While parses may be started, a look-up finds something or starts a parse. -/
theorem lookup_of_accepting (accepting : cache.accepting = true) (id : Identity) :
    (cache.lookup id).1 = cache ∨
    (∀ revision dirty closed, cache.entries.get? id ≠ some (.pending revision dirty closed)) ∧
      (cache.lookup id).1 = cache.schedule id := by
  unfold lookup
  split
  · exact .inl rfl
  · exact .inl rfl
  · rename_i entry
    rw [start, if_pos accepting]
    exact .inr ⟨free_of_none entry, rfl⟩

/-- A parse that is started is not marked as closed, and the other marks stay. -/
theorem mark_of_schedule {id other : Identity} {revision : Nat} {dirty closed : Bool}
    (entry : (cache.schedule id).entries.get? other = some (.pending revision dirty closed)) :
    cache.entries.get? other = some (.pending revision dirty closed) ∨ closed = false := by
  rw [get?_schedule] at entry
  split_ifs at entry
  · cases entry
    exact .inr rfl
  · exact .inl entry

/-- Forgetting a text opens no document. -/
theorem open_of_forgetDocument {id other : Identity}
    (opened : (cache.forgetDocument id).documents.get? other ≠ none) :
    cache.documents.get? other ≠ none := by
  intro closed
  apply opened
  rw [get?_forgetDocument, closed, ite_self]

/-- Where a text was recorded before, the document was open. -/
theorem open_of_unchanged {id : Identity} {document : Document}
    (unchanged : (cache.recordDocument id document).2 = true) :
    ∃ previous, cache.documents.get? id = some previous ∧ previous.text = document.text := by
  simp only [recordDocument, Option.any_eq_true, beq_iff_eq] at unchanged
  exact unchanged

end Cache

/-- The steps that can be taken while parses may be started. -/
inductive World.LiveStep (env : Environment α) (world : World α) : Action → World α → Prop where
  /-- A task takes a step. -/
  | task {task : Task α} {move : Move} {cache : Cache α} (member : task ∈ world.cache.tasks)
      (taken : TaskStep (env.on world.files) world.cache task move cache) :
      LiveStep env world (.move task.revision move) (world.withCache cache)
  /-- The files on the disk change. -/
  | edited (files : FileSystem) : LiveStep env world (.edit files) { world with files := files }
  /-- A client finds what it asks for, or a parse that is on its way. -/
  | found {action : Action} {id : Identity} (asks : action = .request id ∨ action = .look id) :
      LiveStep env world action world
  /-- A client asks for a file of which no parse is on its way. -/
  | scheduled {action : Action} {id : Identity} (asks : action = .request id ∨ action = .look id)
      (free : ∀ revision dirty closed,
        world.cache.entries.get? id ≠ some (.pending revision dirty closed)) :
      LiveStep env world action (world.withCache (world.cache.schedule id))
  /-- A text is recorded. -/
  | recorded (id : Identity) (document : Document) :
      LiveStep env world (.update id document)
        (world.begun (.revise id (world.cache.recordDocument id document).2)
          (world.cache.recordDocument id document).1)
  /-- A text is forgotten, and its outcome stays. -/
  | kept (id : Identity) (keeping : env.options.evictOnClose = false) :
      LiveStep env world (.close id) (world.withCache (world.cache.forgetDocument id))
  /-- A text is forgotten, and its outcome is to be dropped. -/
  | forgotten (id : Identity) (evicting : env.options.evictOnClose = true) :
      LiveStep env world (.close id) (world.begun (.evict id) (world.cache.forgetDocument id))
  /-- The parse on its way is told of a text. -/
  | told {id : Identity} {unchanged : Bool} {revision : Nat} {dirty closed : Bool}
      (begun : .revise id unchanged ∈ world.calls)
      (entry : world.cache.entries.get? id = some (.pending revision dirty closed)) :
      LiveStep env world (.proceed (.revise id unchanged))
        (world.finish (.revise id unchanged)
          { world.cache with
            entries := world.cache.entries.insert id
              (.pending revision (dirty || !unchanged) false) })
  /-- The outcome at hand is good for the text. -/
  | good {id : Identity} {revision : Nat} {outcome : Outcome α}
      (begun : .revise id true ∈ world.calls)
      (entry : world.cache.entries.get? id = some (.ready revision outcome)) :
      LiveStep env world (.proceed (.revise id true)) (world.finish (.revise id true) world.cache)
  /-- There is nothing at hand that is good for the text. -/
  | wanting {id : Identity} {unchanged : Bool} (begun : .revise id unchanged ∈ world.calls)
      (stale : unchanged = false ∨ world.cache.entries.get? id = none)
      (free : ∀ revision dirty closed,
        world.cache.entries.get? id ≠ some (.pending revision dirty closed)) :
      LiveStep env world (.proceed (.revise id unchanged))
        (world.goOn (.revise id unchanged) (.request id) world.cache)
  /-- A parse is on its way by now. -/
  | joined {id : Identity} {revision : Nat} {dirty closed : Bool}
      (begun : .request id ∈ world.calls)
      (entry : world.cache.entries.get? id = some (.pending revision dirty closed)) :
      LiveStep env world (.proceed (.request id)) (world.finish (.request id) world.cache)
  /-- A parse is started. -/
  | started {id : Identity} (begun : .request id ∈ world.calls)
      (free : ∀ revision dirty closed,
        world.cache.entries.get? id ≠ some (.pending revision dirty closed)) :
      LiveStep env world (.proceed (.request id))
        (world.finish (.request id) (world.cache.schedule id))
  /-- The parse on its way is told that its document was closed. -/
  | doomed {id : Identity} {revision : Nat} {dirty closed : Bool} (begun : .evict id ∈ world.calls)
      (entry : world.cache.entries.get? id = some (.pending revision dirty closed)) :
      LiveStep env world (.proceed (.evict id))
        (world.finish (.evict id)
          { world.cache with
            entries := world.cache.entries.insert id (.pending revision false true) })
  /-- The outcome of a closed document is dropped. -/
  | dropped {id : Identity} {revision : Nat} {outcome : Outcome α}
      (begun : .evict id ∈ world.calls)
      (entry : world.cache.entries.get? id = some (.ready revision outcome)) :
      LiveStep env world (.proceed (.evict id))
        (world.finish (.evict id)
          { world.cache with entries := world.cache.entries.erase id })
  /-- There is nothing to drop. -/
  | vacant {id : Identity} (begun : .evict id ∈ world.calls)
      (entry : world.cache.entries.get? id = none) :
      LiveStep env world (.proceed (.evict id)) (world.finish (.evict id) world.cache)

namespace World

variable {env : Environment α} {world next : World α} {action : Action}
  {trail : List (World α × Action)}

/-! ## Every step is one of these -/

/-- The next step of an update is one of those listed. -/
theorem LiveStep.of_revise {id : Identity} {unchanged : Bool}
    (begun : .revise id unchanged ∈ world.calls)
    (taken : world.proceed (.revise id unchanged) = some next) :
    LiveStep env world (.proceed (.revise id unchanged)) next := by
  cases entry : world.cache.entries.get? id with
  | none =>
    have revised : world.cache.reviseEntry id unchanged = (world.cache, none) := by
      simp only [reviseEntry, entry]
    rw [proceed_revise_none revised] at taken
    cases taken
    exact .wanting begun (.inr entry) (free_of_none entry)
  | some held =>
    cases held with
    | pending revision dirty closed =>
      rw [proceed_revise_some (by simp only [reviseEntry, entry]; rfl)] at taken
      cases taken
      exact .told begun entry
    | ready revision outcome =>
      cases unchanged with
      | true =>
        rw [proceed_revise_some (by simp only [reviseEntry, entry, if_true]; rfl)] at taken
        cases taken
        exact .good begun entry
      | false =>
        have revised : world.cache.reviseEntry id false = (world.cache, none) := by
          simp only [reviseEntry, entry]
          rfl
        rw [proceed_revise_none revised] at taken
        cases taken
        exact .wanting begun (.inl rfl) (free_of_ready entry)

/-- The last step of a close is one of those listed. -/
theorem LiveStep.of_evict {id : Identity} (begun : .evict id ∈ world.calls) :
    LiveStep env world (.proceed (.evict id))
      (world.finish (.evict id) (world.cache.evict id)) := by
  unfold Cache.evict
  split
  · exact .doomed begun ‹_›
  · exact .dropped begun ‹_›
  · exact .vacant begun ‹_›

/-- Every step taken while parses may be started is one of those listed. -/
theorem LiveStep.of_step (coherent : world.Coherent) (accepting : next.cache.accepting = true)
    (taken : world.step env action = some next) : LiveStep env world action next := by
  -- The end of the work has not begun, so no call that is half done is part of it.
  have was : world.cache.accepting = true := accepting_of_step taken accepting
  have ending : ∀ call ∈ world.calls, call.file? ≠ none := by
    intro call begun all
    have ended := coherent.ending call begun all
    rw [was] at ended
    cases ended
  cases action with
  | edit files =>
    cases taken
    exact .edited files
  | update id document =>
    cases taken
    exact .recorded id document
  | close id =>
    simp only [step] at taken
    split_ifs at taken with evicting <;> cases taken
    · exact .forgotten id evicting
    · exact .kept id (Bool.eq_false_iff.mpr evicting)
  | request id =>
    cases taken
    rcases requestParse_of_accepting was id with ⟨-, same⟩ | ⟨free, scheduled⟩
    · rw [same]
      exact .found (.inl rfl)
    · rw [scheduled]
      exact .scheduled (.inl rfl) free
  | look id =>
    cases taken
    rcases lookup_of_accepting was id with same | ⟨free, scheduled⟩
    · rw [same]
      exact .found (.inr rfl)
    · rw [scheduled]
      exact .scheduled (.inr rfl) free
  | shutdown =>
    rw [step, if_pos was] at taken
    cases taken
    cases accepting
  | proceed call =>
    simp only [step] at taken
    split_ifs at taken with begun
    cases call with
    | revise id unchanged => exact .of_revise begun taken
    | request id =>
      cases taken
      rcases requestParse_of_accepting was id with ⟨⟨_, _, _, entry⟩, same⟩ | ⟨free, scheduled⟩
      · rw [same]
        exact .joined begun entry
      · rw [scheduled]
        exact .started begun free
    | evict id =>
      cases taken
      exact .of_evict begun
    | stopAdmitting | abandon => exact absurd rfl (ending _ begun)
  | sweep left id =>
    simp only [step] at taken
    split_ifs at taken with begun
    exact absurd rfl (ending _ begun.1)
  | move revision move =>
    rcases step_cases taken with ⟨task, member, moved, named, same, taken⟩ | ⟨other, -⟩
    · rw [named, same]
      exact .task member taken
    · exact absurd rfl (other revision move)

/-! ## What the calls can rely on -/

/-- What calls that follow each other can rely on. -/
structure Orderly (world : World α) : Prop where
  /-- At most one call is half done. -/
  single : world.calls.length ≤ 1
  /-- An update finds its document open. -/
  recorded : ∀ id unchanged, .revise id unchanged ∈ world.calls →
    world.cache.documents.get? id ≠ none
  /-- A close finds its document closed. -/
  forgotten : ∀ id, .evict id ∈ world.calls → world.cache.documents.get? id = none
  /-- The parse of an open document is not marked as closed, unless it is still to be told. -/
  unclosed : ∀ id revision dirty closed, .revise id false ∉ world.calls →
    world.cache.documents.get? id ≠ none →
    world.cache.entries.get? id = some (.pending revision dirty closed) → closed = false

namespace Orderly

/-- A call that is half done is the only one. -/
theorem calls_eq (orderly : world.Orderly) {call : Remainder} (begun : call ∈ world.calls) :
    world.calls = [call] := by
  have single := orderly.single
  match hc : world.calls with
  | [] =>
    rw [hc] at begun
    cases begun
  | [only] =>
    rw [hc] at begun
    rw [List.mem_singleton.mp begun]
  | _ :: _ :: _ =>
    rw [hc] at single
    simp at single

/-- When the only call is over, none is half done. -/
theorem finish_calls (orderly : world.Orderly) {call : Remainder} (begun : call ∈ world.calls)
    (cache : Cache α) : (world.finish call cache).calls = [] := by
  simp only [finish, orderly.calls_eq begun, List.erase_cons_head]

/-- What the only call has still to do is all there is to do. -/
theorem goOn_calls (orderly : world.Orderly) {call : Remainder} (begun : call ∈ world.calls)
    (rest : Remainder) (cache : Cache α) : (world.goOn call rest cache).calls = [rest] := by
  rw [goOn, begun_calls, orderly.finish_calls begun]

/-- At the start no call is half done. -/
theorem initial (files : FileSystem) : (World.initial files : World α).Orderly :=
  ⟨Nat.zero_le _, nofun, nofun, nofun⟩

/-- A world in which no call is half done has only to see to its marks. -/
theorem of_no_calls (none : world.calls = [])
    (unclosed : ∀ id revision dirty closed, world.cache.documents.get? id ≠ Option.none →
      world.cache.entries.get? id = some (.pending revision dirty closed) → closed = false) :
    world.Orderly := by
  refine ⟨?_, ?_, ?_, fun id revision dirty closed _ => unclosed id revision dirty closed⟩
  · rw [none]
    exact Nat.zero_le _
  · intro id unchanged begun
    rw [none] at begun
    cases begun
  · intro id begun
    rw [none] at begun
    cases begun

/-- A world in which one call is half done has to see to the document of that call, and to its
marks. -/
theorem of_single {call : Remainder} (calls : world.calls = [call])
    (recorded : ∀ id unchanged, call = .revise id unchanged →
      world.cache.documents.get? id ≠ none)
    (forgotten : ∀ id, call = .evict id → world.cache.documents.get? id = none)
    (unclosed : ∀ id revision dirty closed, call ≠ .revise id false →
      world.cache.documents.get? id ≠ none →
      world.cache.entries.get? id = some (.pending revision dirty closed) → closed = false) :
    world.Orderly := by
  have only : ∀ other, other ∈ world.calls ↔ call = other := fun other => by
    rw [calls, List.mem_singleton, eq_comm]
  refine ⟨?_, fun id unchanged begun => recorded id unchanged ((only _).1 begun),
    fun id begun => forgotten id ((only _).1 begun), fun id revision dirty closed told =>
      unclosed id revision dirty closed (mt (only _).2 told)⟩
  rw [calls]
  exact Nat.le_refl _

/-- A step that leaves calls and documents as they are, and marks no parse as closed, keeps the
order. -/
theorem congr (orderly : world.Orderly) (calls : next.calls = world.calls)
    (documents : next.cache.documents = world.cache.documents)
    (entries : ∀ id revision dirty closed,
      next.cache.entries.get? id = some (.pending revision dirty closed) →
      world.cache.entries.get? id = some (.pending revision dirty closed) ∨ closed = false) :
    next.Orderly := by
  refine ⟨?_, ?_, ?_, ?_⟩
  · rw [calls]
    exact orderly.single
  · rw [calls, documents]
    exact orderly.recorded
  · rw [calls, documents]
    exact orderly.forgotten
  · rw [calls, documents]
    intro id revision dirty closed told opened entry
    rcases entries id revision dirty closed entry with same | unclosed
    · exact orderly.unclosed id revision dirty closed told opened same
    · exact unclosed

/-- The parse of an open document is not marked as closed while another call than the one that
opened it is half done. -/
theorem unclosed_of_call (orderly : world.Orderly) {call : Remainder} (begun : call ∈ world.calls)
    {id : Identity} (other : call ≠ .revise id false) {revision : Nat} {dirty closed : Bool}
    (opened : world.cache.documents.get? id ≠ none)
    (entry : world.cache.entries.get? id = some (.pending revision dirty closed)) :
    closed = false := by
  refine orderly.unclosed id revision dirty closed ?_ opened entry
  rw [orderly.calls_eq begun, List.mem_singleton]
  exact other.symm

/-- The parse of an open document is not marked as closed while no call is half done. -/
theorem unclosed_of_no_calls (orderly : world.Orderly) (none : world.calls = []) {id : Identity}
    {revision : Nat} {dirty closed : Bool} (opened : world.cache.documents.get? id ≠ Option.none)
    (entry : world.cache.entries.get? id = some (.pending revision dirty closed)) :
    closed = false := by
  refine orderly.unclosed id revision dirty closed ?_ opened entry
  rw [none]
  exact List.not_mem_nil

/-- A call may end without having changed anything, if it has not opened a document. -/
theorem finish_same (orderly : world.Orderly) {call : Remainder} (begun : call ∈ world.calls)
    (other : ∀ id, call ≠ .revise id false) : (world.finish call world.cache).Orderly :=
  of_no_calls (orderly.finish_calls begun _) fun id _ _ _ opened entry =>
    orderly.unclosed_of_call begun (other id) opened entry

/-- Every step keeps the calls in order, if a call begins only when none is half done. -/
theorem step (orderly : world.Orderly) (turn : action.begins = true → world.calls = [])
    (taken : LiveStep env world action next) : next.Orderly := by
  cases taken with
  | @task task move cache member taken =>
    refine orderly.congr rfl taken.frame.1 fun id revision dirty closed entry => ?_
    change cache.entries.get? id = _ at entry
    rcases taken.entry_cases id with same | ⟨-, ⟨gone, -⟩ | ⟨fresh, -⟩ | ⟨_, _, _, stored, -⟩⟩
    · rw [same] at entry
      exact .inl entry
    · rw [gone] at entry
      cases entry
    · rw [fresh] at entry
      cases entry
      exact .inr rfl
    · rw [stored] at entry
      cases entry
  | edited => exact orderly.congr rfl rfl fun _ _ _ _ entry => .inl entry
  | found => exact orderly
  | scheduled => exact orderly.congr rfl rfl fun _ _ _ _ entry => mark_of_schedule entry
  | recorded id document =>
    have none := turn rfl
    generalize hu : (world.cache.recordDocument id document).2 = unchanged
    have calls : (world.begun (.revise id unchanged)
        (world.cache.recordDocument id document).1).calls = [.revise id unchanged] := by
      rw [begun_calls, none]
    refine of_single calls (fun other _ same => ?_) (fun other same => ?_)
      fun other revision dirty closed told opened entry => ?_
    · cases same
      rw [begun, get?_recordDocument, if_pos rfl]
      exact Option.some_ne_none _
    · cases same
    · refine orderly.unclosed_of_no_calls none ?_ entry
      rw [begun, get?_recordDocument] at opened
      split_ifs at opened with same
      · -- The call has something to tell unless the document was open before.
        cases unchanged with
        | false => exact absurd (by rw [same]) told
        | true =>
          obtain ⟨previous, found, -⟩ := open_of_unchanged hu
          rw [same, found]
          exact Option.some_ne_none _
      · exact opened
  | kept id =>
    -- A document that is open now was so before.
    have none := turn rfl
    refine of_no_calls none fun other revision dirty closed opened entry => ?_
    exact orderly.unclosed_of_no_calls none (open_of_forgetDocument opened) entry
  | forgotten id =>
    have none := turn rfl
    have calls : (world.begun (.evict id) (world.cache.forgetDocument id)).calls = [.evict id] := by
      rw [begun_calls, none]
    refine of_single calls (fun other _ same => ?_) (fun other same => ?_)
      fun other revision dirty closed _ opened entry => ?_
    · cases same
    · cases same
      rw [begun, get?_forgetDocument, if_pos rfl]
    · exact orderly.unclosed_of_no_calls none (open_of_forgetDocument opened) entry
  | @told id unchanged revision dirty closed begun entry =>
    refine of_no_calls (orderly.finish_calls begun _) fun other r d c opened marked => ?_
    rw [finish, Table.get?_insert] at marked
    split_ifs at marked with same
    · -- This is where the mark of a reopened document ceases to be closed.
      cases marked
      rfl
    · refine orderly.unclosed_of_call begun ?_ opened marked
      rintro ⟨⟩
      exact same rfl
  | @good id revision outcome begun entry =>
    exact orderly.finish_same begun (by rintro _ ⟨⟩)
  | @wanting id unchanged begun stale free =>
    -- The file of the call has no mark at all.
    refine of_single (orderly.goOn_calls begun (.request id) world.cache)
      (fun other _ same => ?_) (fun other same => ?_) fun other r d c _ opened marked => ?_
    · cases same
    · cases same
    · refine orderly.unclosed_of_call begun ?_ opened marked
      rintro ⟨⟩
      exact free r d c marked
  | @joined id revision dirty closed begun entry =>
    exact orderly.finish_same begun (by rintro _ ⟨⟩)
  | @started id begun free =>
    refine of_no_calls (orderly.finish_calls begun _) fun other r d c opened marked => ?_
    rcases mark_of_schedule marked with same | unclosed
    · exact orderly.unclosed_of_call begun (by rintro ⟨⟩) opened same
    · exact unclosed
  | @doomed id revision dirty closed begun entry =>
    refine of_no_calls (orderly.finish_calls begun _) fun other r d c opened marked => ?_
    rw [finish, Table.get?_insert] at marked
    split_ifs at marked with same
    · -- The mark becomes closed, but the document is so too.
      rw [same] at opened
      exact absurd (orderly.forgotten id begun) opened
    · exact orderly.unclosed_of_call begun (by rintro ⟨⟩) opened marked
  | @dropped id revision outcome begun entry =>
    refine of_no_calls (orderly.finish_calls begun _) fun other r d c opened marked => ?_
    rw [finish, Table.get?_erase] at marked
    split_ifs at marked
    exact orderly.unclosed_of_call begun (by rintro ⟨⟩) opened marked
  | @vacant id begun entry =>
    exact orderly.finish_same begun (by rintro _ ⟨⟩)

end Orderly

end World

namespace Run

variable {env : Environment α} {world : World α} {trail : List (World α × Action)}

/-- What holds at the start and is kept by every step that can be taken while parses may be started
and calls follow each other, holds as long as they do. -/
theorem live_induction {motive : World α → List (World α × Action) → Prop}
    (run : Run env world trail) (serial : Serial trail) (accepting : world.cache.accepting = true)
    (start : ∀ files, motive (World.initial files) [])
    (step : ∀ world next trail action, Run env world trail → Serial trail →
      world.cache.accepting = true → (action.begins = true → world.calls = []) →
      World.LiveStep env world action next → motive world trail →
      motive next ((world, action) :: trail)) : motive world trail := by
  induction run with
  | start files => exact start files
  | @step world next trail run action taken ih =>
    have was := World.accepting_of_step taken accepting
    have before : Serial trail := fun moment past => serial moment (List.mem_cons_of_mem _ past)
    exact step world next trail action run before was (serial _ List.mem_cons_self)
      (.of_step run.coherent accepting taken) (ih before was)

/-- As long as parses may be started, every moment of a run was reached by a run of the same kind
and left by one of the steps listed. -/
theorem live_past (run : Run env world trail) (serial : Serial trail)
    (accepting : world.cache.accepting = true) {moment : World α × Action}
    (member : moment ∈ trail) :
    ∃ before, Run env moment.1 before ∧ Serial before ∧ before ⊆ trail ∧
      moment.1.cache.accepting = true ∧
      ∃ next ∈ world :: trail.map Prod.fst, World.LiveStep env moment.1 moment.2 next := by
  refine run.live_induction (motive := fun world trail => ∀ moment ∈ trail,
    ∃ before, Run env moment.1 before ∧ Serial before ∧ before ⊆ trail ∧
      moment.1.cache.accepting = true ∧
      ∃ next ∈ world :: trail.map Prod.fst, World.LiveStep env moment.1 moment.2 next)
    serial accepting (fun _ => nofun) ?_ moment member
  intro world next trail action run serial accepting turn taken ih moment member
  rcases List.mem_cons.mp member with rfl | member
  · exact ⟨trail, run, serial, List.subset_cons_self _ _, accepting, next, List.mem_cons_self,
      taken⟩
  · obtain ⟨before, earlier, serial, within, accepting, after, found, left⟩ := ih moment member
    exact ⟨before, earlier, serial, List.subset_cons_of_subset _ within, accepting, after,
      List.mem_cons_of_mem _ found, left⟩

/-- While parses may be started and calls follow each other, they are in order. -/
theorem orderly (run : Run env world trail) (serial : Serial trail)
    (accepting : world.cache.accepting = true) : world.Orderly :=
  run.live_induction (motive := fun world _ => world.Orderly) serial accepting
    World.Orderly.initial
    fun _ _ _ _ _ _ _ turn taken orderly => orderly.step turn taken

end Run

end DiagnosticServer
