import DiagnosticServer.Proofs.Cache.Freshness
import DiagnosticServer.Proofs.Cache.Account

/-!
# Dialogues

A dialogue is a session from its start on, with everything that goes on around it: the world of its
cache, the files that URIs were found to name, the pulls of the client and the reports that they
were answered with. It goes on by small steps as a world does, and a pull has several of them: the
file that its URI names is found, the file is looked up for it, and as long as there is no outcome
it waits for a parse and looks again. Anything else may happen in between.

`Reached.sound` shows that the world of a dialogue is reached by a run, so all that holds of runs
holds here, and that every report was made of the outcome which was held for the file of its pull at
some moment of the run. `Reached.traced` shows that this file was once named by the URI of the pull.
`Reached.opened` and the theorems after it show that the calls of a session are made of the steps of
a dialogue.
-/

namespace DiagnosticServer

variable {α : Type}

open Cache

/-- A pull whose file was found. -/
structure Pull where
  /-- The URI that was asked for. -/
  uri : Uri
  /-- The file that it named then. -/
  id : Identity
  /-- The name of the report that the client has, if it has one. -/
  previous : Option String
deriving DecidableEq

/-- A report that was made. -/
structure Delivery (α : Type) where
  /-- The pull that it answers. -/
  pull : Pull
  /-- The outcome that it is about. -/
  snapshot : Snapshot α
  /-- The steps of the world before the outcome was looked up, latest first. -/
  past : List (World α × Action)

namespace Delivery

variable (env : Environment α) (delivery : Delivery α)

/-- What the client was sent. -/
def report : Report :=
  .ofOutcome env.options.diagnosticSource delivery.snapshot.revision delivery.snapshot.outcome
    delivery.pull.previous

/-- The diagnostics of the outcome, whether or not they were sent. -/
def items : List Diagnostic :=
  Diagnostic.ofOutcome env.options.diagnosticSource delivery.snapshot.outcome

end Delivery

/-- A session and what goes on around it. -/
structure Dialogue (α : Type) where
  /-- The session, with the queries that wait in it. -/
  engine : Engine α
  /-- The files on the disk. -/
  files : FileSystem
  /-- What the calls that have begun have still to do. -/
  calls : List Remainder
  /-- The steps of the world so far, latest first. -/
  trail : List (World α × Action)
  /-- The pulls whose files have not been looked up yet. -/
  begun : List Pull
  /-- The pulls whose files have been looked up, in the order of their numbers. -/
  asked : List Pull
  /-- The reports that were made, oldest first. -/
  reports : List (Delivery α)

/-- One step of a dialogue. -/
inductive Happening where
  /-- A step of the world is taken: by a task, by a client or by the disk. -/
  | act (action : Action)
  /-- A call finds the file that a URI names. -/
  | name (uri : Uri)
  /-- A call forgets which file a URI named. -/
  | forget (uri : Uri)
  /-- A client begins a pull, and the file is found. -/
  | pull (uri : Uri) (previous : Option String)
  /-- The file of a pull is looked up for the first time. -/
  | ask (pull : Pull)
  /-- The query of that number goes on. -/
  | resume (number : Nat)

/-- The outcomes with which queries were answered between two states of an engine. -/
def Engine.answered (before after : Engine α) : List (Snapshot α) :=
  (after.answers.drop before.answers.length).filterMap fun answer => answer.2.toOption

namespace Dialogue

/-- A dialogue at its start. -/
def initial (engine : Engine α) (files : FileSystem) : Dialogue α :=
  ⟨engine, files, [], [], [], [], []⟩

/-- The world of the cache. -/
def world (dialogue : Dialogue α) : World α :=
  ⟨dialogue.engine.cache, dialogue.files, dialogue.calls⟩

/-- The dialogue with another session, and with the steps that led there. -/
def withSession (dialogue : Dialogue α) (session : Session α) (trail : List (World α × Action)) :
    Dialogue α :=
  { dialogue with engine := { dialogue.engine with session := session }, trail := trail }

/-- The dialogue in another world, with the steps that led there. -/
def withWorld (dialogue : Dialogue α) (world : World α) (trail : List (World α × Action)) :
    Dialogue α :=
  { dialogue with
    engine := dialogue.engine.withCache world.cache
    files := world.files
    calls := world.calls
    trail := trail }

/-- The reports after outcomes were found for a pull. -/
def deliver (dialogue : Dialogue α) (pull : Pull) (found : List (Snapshot α)) :
    List (Delivery α) :=
  dialogue.reports ++ found.map fun snapshot => ⟨pull, snapshot, dialogue.trail⟩

/-- The steps of the world after a query with that handle has gone on: it looks its file up, unless
its parse was given up. -/
def resumed (dialogue : Dialogue α) (handle : Handle) : List (World α × Action) :=
  match dialogue.engine.cache.progress handle with
  | .finished => (dialogue.world, .look handle.id) :: dialogue.trail
  | .waiting | .abandoned => dialogue.trail

/-- The dialogue after the file of a pull was looked up for the first time. -/
def afterAsk (dialogue : Dialogue α) (pull : Pull) (engine : Engine α)
    (result : Option (Except Error (Snapshot α))) : Dialogue α :=
  { dialogue with
    engine := engine
    trail := (dialogue.world, .look pull.id) :: dialogue.trail
    begun := dialogue.begun.erase pull
    asked := dialogue.asked ++ [pull]
    reports := dialogue.deliver pull (result.bind Except.toOption).toList }

/-- The dialogue after a query with that handle has gone on for a pull. -/
def afterResume (dialogue : Dialogue α) (handle : Handle) (pull : Pull) (engine : Engine α) :
    Dialogue α :=
  { dialogue with
    engine := engine
    trail := dialogue.resumed handle
    reports := dialogue.deliver pull (dialogue.engine.answered engine) }

/-- What a step makes of a dialogue, if it can be taken. -/
def step (env : Environment α) (dialogue : Dialogue α) : Happening → Option (Dialogue α)
  | .act action =>
    (dialogue.world.step env action).map fun next =>
      dialogue.withWorld next ((dialogue.world, action) :: dialogue.trail)
  | .name uri =>
    let found := dialogue.engine.session.identity dialogue.files uri
    some (dialogue.withSession found.1 dialogue.trail)
  | .forget uri =>
    let session := dialogue.engine.session
    some (dialogue.withSession { session with identities := session.identities.erase uri }
      dialogue.trail)
  | .pull uri previous =>
    match dialogue.engine.session.identity dialogue.files uri with
    | (session, .ok id) =>
      some { dialogue.withSession session dialogue.trail with
        begun := ⟨uri, id, previous⟩ :: dialogue.begun }
    | (session, .error _) => some (dialogue.withSession session dialogue.trail)
  | .ask pull =>
    if pull ∈ dialogue.begun then
      let (engine, result) := dialogue.engine.ask dialogue.asked.length pull.id
      some (dialogue.afterAsk pull engine result)
    else none
  | .resume number =>
    match dialogue.engine.queries.find? fun query => query.number = number,
      dialogue.asked[number]? with
    | some query, some pull =>
      (dialogue.engine.resume query).map (dialogue.afterResume query.handle pull)
    | _, _ => none

/-- The dialogues that there can be. -/
inductive Reached (env : Environment α) : Dialogue α → Prop where
  /-- A session was made, and nothing has happened yet. -/
  | start {engine : Engine α} (created : Engine.create env = .ok engine) (files : FileSystem) :
      Reached env (initial engine files)
  /-- One more step was taken. -/
  | step {dialogue next : Dialogue α} (reached : Reached env dialogue) (happening : Happening)
      (taken : dialogue.step env happening = some next) : Reached env next

end Dialogue

/-! ## What calls and queries do to a session -/

/-- Whether a session remembers no more files than another one, but for those that are named on that
disk. -/
def Session.Recalls (files : FileSystem) (session before : Session α) : Prop :=
  ∀ uri id, session.identities.get? uri = some id →
    before.identities.get? uri = some id ∨ Identity.ofUri files uri = .ok id

/-- Finding the file that a URI names leaves the cache alone, and the file is remembered. -/
theorem Session.identity_spec {session next : Session α} {files : FileSystem} {uri : Uri}
    {found : Except Error Identity} (identified : session.identity files uri = (next, found)) :
    next.cache = session.cache ∧ next.Recalls files session ∧
      ∀ id, found = .ok id → next.identities.get? uri = some id := by
  unfold identity at identified
  split at identified
  · rename_i id known
    cases identified
    refine ⟨rfl, fun _ _ => .inl, fun other same => ?_⟩
    cases same
    exact known
  · split at identified
    · rename_i id named
      cases identified
      refine ⟨rfl, fun other old recalled => ?_, fun other same => ?_⟩
      · rw [Table.get?_insert] at recalled
        split_ifs at recalled with own
        · cases recalled
          rw [own]
          exact .inr named
        · exact .inl recalled
      · cases same
        rw [Table.get?_insert, if_pos rfl]
    · cases identified
      refine ⟨rfl, fun _ _ => .inl, fun other same => ?_⟩
      cases same

namespace Engine

variable {engine next : Engine α} {id : Identity} {query : Query} {snapshot : Snapshot α}

/-- A query that has to wait does so for the file that it looked up. -/
theorem id_of_consult {handle : Handle} (consulted : engine.consult id = (next, .waits handle)) :
    handle.id = id := by
  unfold consult lookup at consulted
  split at consulted
  · cases consulted
  · rename_i cache found looked
    cases consulted
    split at looked
    · cases looked
      rfl
    · cases looked
    · unfold start at looked
      split_ifs at looked <;> cases looked
      rfl
  · cases consulted

/-- A query does to the session what a look-up does to the cache. -/
theorem session_of_consult {answer : Answer α} (consulted : engine.consult id = (next, answer)) :
    next.session = { engine.session with cache := (engine.cache.lookup id).1 } := by
  unfold consult at consulted
  split at consulted <;> rename_i looked <;> cases consulted <;> rw [looked] <;> rfl

/-- A query leaves the queries that wait. -/
theorem queries_of_consult {answer : Answer α} (consulted : engine.consult id = (next, answer)) :
    next.queries = engine.queries := by
  unfold consult at consulted
  split at consulted <;> cases consulted <;> rfl

/-- Asking for a file looks it up, and if the query has to wait it does so for that file. -/
theorem ask_spec {number : Nat} {result : Option (Except Error (Snapshot α))}
    (asked : engine.ask number id = (next, result)) :
    next.session = { engine.session with cache := (engine.cache.lookup id).1 } ∧
      ∀ query ∈ next.queries, query ∈ engine.queries ∨
        query.number = number ∧ query.handle.id = id := by
  unfold ask at asked
  split at asked
  · rename_i between answer consulted
    cases asked
    refine ⟨session_of_consult consulted, fun query member => .inl ?_⟩
    rwa [queries_of_consult consulted] at member
  · rename_i between handle consulted
    have looked := session_of_consult consulted
    cases asked
    refine ⟨looked, fun query member => ?_⟩
    rcases List.mem_append.mp member with member | member
    · rw [queries_of_consult consulted] at member
      exact .inl member
    · rw [List.mem_singleton.mp member]
      exact .inr ⟨rfl, id_of_consult consulted⟩

/-- A query whose parse was given up leaves the session alone, and one that goes on looks its file
up.
The other queries wait as before, and it waits for the same file if it does. -/
theorem resume_spec (member : query ∈ engine.queries) (resumed : engine.resume query = some next) :
    (engine.cache.progress query.handle ≠ .finished ∧ next.session = engine.session ∨
      engine.cache.progress query.handle = .finished ∧ next.session =
        { engine.session with cache := (engine.cache.lookup query.handle.id).1 }) ∧
      ∀ other ∈ next.queries, ∃ before ∈ engine.queries,
        other.number = before.number ∧ other.handle.id = before.handle.id := by
  unfold resume at resumed
  split at resumed
  · cases resumed
  · -- The parse was given up: the query is told so and waits no more.
    rename_i abandoned
    cases resumed
    refine ⟨.inl ⟨by rw [abandoned]; exact nofun, rfl⟩, fun other found => ?_⟩
    exact ⟨other, (List.mem_filter.mp found).1, rfl, rfl⟩
  · -- The parse has ended: the query looks its file up and is answered, or waits once more.
    rename_i finished
    split at resumed
    · rename_i between result consulted
      have looked := session_of_consult consulted
      cases resumed
      refine ⟨.inr ⟨finished, looked⟩, fun other found => ?_⟩
      have kept := (List.mem_filter.mp found).1
      rw [queries_of_consult consulted] at kept
      exact ⟨other, kept, rfl, rfl⟩
    · rename_i between handle consulted
      have looked := session_of_consult consulted
      cases resumed
      refine ⟨.inr ⟨finished, looked⟩, fun other found => ?_⟩
      obtain ⟨before, kept, rfl⟩ := List.mem_map.mp found
      rw [queries_of_consult consulted] at kept
      split_ifs with own
      · exact ⟨query, member, own, id_of_consult consulted⟩
      · exact ⟨before, kept, rfl, rfl⟩

/-- Asking for a file leaves those that are remembered. -/
theorem identities_of_ask {number : Nat} {result : Option (Except Error (Snapshot α))}
    (asked : engine.ask number id = (next, result)) :
    next.session.identities = engine.session.identities := by
  rw [(ask_spec asked).1]

/-- So does a query that goes on. -/
theorem identities_of_resume (member : query ∈ engine.queries)
    (resumed : engine.resume query = some next) :
    next.session.identities = engine.session.identities := by
  rcases (resume_spec member resumed).1 with ⟨-, same⟩ | ⟨-, same⟩ <;> rw [same]

/-- Where no query was answered, none was answered with an outcome. -/
theorem not_mem_answered (same : next.answers = engine.answers) :
    snapshot ∉ engine.answered next := by
  rw [answered, same, List.drop_length]
  exact List.not_mem_nil

/-- Where one query was answered, it is the one that was answered with the outcome. -/
theorem eq_of_answered {number : Nat} {result : Except Error (Snapshot α)}
    (added : next.answers = engine.answers ++ [(number, result)])
    (found : snapshot ∈ engine.answered next) : result = .ok snapshot := by
  rw [answered, added, List.drop_left, List.mem_filterMap] at found
  obtain ⟨answer, member, held⟩ := found
  rw [List.mem_singleton.mp member] at held
  cases result with
  | error => cases held
  | ok other =>
    cases held
    rfl

/-- A query that goes on is answered with no outcome but the one at hand. -/
theorem cached_of_answered (resumed : engine.resume query = some next)
    (found : snapshot ∈ engine.answered next) :
    engine.cache.cached? query.handle.id = some snapshot := by
  have went := resumed
  unfold resume at resumed
  split at resumed
  · cases resumed
  · -- The parse was given up, and the query is told so.
    cases resumed
    cases eq_of_answered rfl found
  · split at resumed
    · rename_i between result consulted
      cases resumed
      have added : (between.answer query.number result).answers =
          engine.answers ++ [(query.number, result)] := by
        rw [← answers_of_consult consulted]
        rfl
      obtain rfl := eq_of_answered added found
      exact cached_of_resume went added
    · -- The query has to wait again, and nothing is answered.
      rename_i between handle consulted
      have same := answers_of_consult consulted
      cases resumed
      exact absurd found (not_mem_answered same)

end Engine

/-! ## What a step can do -/

/-- What one step makes of a dialogue. -/
inductive Dialogue.Proceeds (env : Environment α) (dialogue : Dialogue α) :
    Dialogue α → Prop where
  /-- The world takes a step. -/
  | stepped {world : World α} {action : Action}
      (taken : dialogue.world.step env action = some world) :
      Proceeds env dialogue (dialogue.withWorld world ((dialogue.world, action) :: dialogue.trail))
  /-- Files are found or forgotten, and pulls begin. -/
  | named {session : Session α} (same : session.cache = dialogue.engine.cache)
      (recalls : session.Recalls dialogue.files dialogue.engine.session) {begun : List Pull}
      (found : ∀ pull ∈ begun, pull ∈ dialogue.begun ∨
        session.identities.get? pull.uri = some pull.id) :
      Proceeds env dialogue { dialogue.withSession session dialogue.trail with begun := begun }
  /-- The file of a pull is looked up for the first time. -/
  | asked {pull : Pull} (member : pull ∈ dialogue.begun) {engine : Engine α}
      {result : Option (Except Error (Snapshot α))}
      (asks : dialogue.engine.ask dialogue.asked.length pull.id = (engine, result)) :
      Proceeds env dialogue (dialogue.afterAsk pull engine result)
  /-- A query goes on. -/
  | resumed {query : Query} (waits : query ∈ dialogue.engine.queries) {pull : Pull}
      (served : dialogue.asked[query.number]? = some pull) {engine : Engine α}
      (goesOn : dialogue.engine.resume query = some engine) :
      Proceeds env dialogue (dialogue.afterResume query.handle pull engine)

namespace Dialogue

variable {env : Environment α} {dialogue next : Dialogue α} {happening : Happening}

/-- Every step is one of these. -/
theorem proceeds_of_step (taken : dialogue.step env happening = some next) :
    Proceeds env dialogue next := by
  have old : ∀ session : Session α, ∀ pull ∈ dialogue.begun, pull ∈ dialogue.begun ∨
      session.identities.get? pull.uri = some pull.id := fun _ _ => .inl
  cases happening with
  | act action =>
    obtain ⟨after, stepped, rfl⟩ := Option.map_eq_some_iff.mp taken
    exact .stepped stepped
  | name uri =>
    obtain ⟨same, recalls, -⟩ := Session.identity_spec
      (rfl : dialogue.engine.session.identity dialogue.files uri = _)
    cases taken
    exact .named same recalls (old _)
  | forget uri =>
    let session := dialogue.engine.session
    let forgetful : Session α := { session with identities := session.identities.erase uri }
    have same : forgetful.cache = dialogue.engine.cache := rfl
    have recalls : forgetful.Recalls dialogue.files session := by
      intro other id recalled
      rw [Table.get?_erase] at recalled
      split_ifs at recalled
      exact .inl recalled
    cases taken
    exact .named same recalls (old _)
  | pull uri previous =>
    rw [step] at taken
    split at taken <;> rename_i identified <;>
      obtain ⟨same, recalls, found⟩ := Session.identity_spec identified <;> cases taken
    · refine .named same recalls fun pull member => ?_
      rcases List.mem_cons.mp member with rfl | member
      · exact .inr (found _ rfl)
      · exact .inl member
    · exact .named same recalls (old _)
  | ask pull =>
    rw [step] at taken
    split_ifs at taken with member
    cases taken
    exact .asked member rfl
  | resume number =>
    rw [step] at taken
    split at taken
    · rename_i query pull found served
      obtain ⟨engine, goesOn, rfl⟩ := Option.map_eq_some_iff.mp taken
      obtain rfl : query.number = number := by simpa using List.find?_some found
      exact .resumed (List.mem_of_find?_eq_some found) served goesOn
    · cases taken

/-! ## The queries that wait -/

/-- Whether every query that waits is about the file of its pull. -/
def Matched (dialogue : Dialogue α) : Prop :=
  ∀ query ∈ dialogue.engine.queries, ∃ pull,
    dialogue.asked[query.number]? = some pull ∧ pull.id = query.handle.id

/-- A query that has just been asked is about the file of its pull, and the others stay. -/
theorem Matched.ask (matched : dialogue.Matched) {pull : Pull} {engine : Engine α}
    {result : Option (Except Error (Snapshot α))}
    (asks : dialogue.engine.ask dialogue.asked.length pull.id = (engine, result)) :
    (dialogue.afterAsk pull engine result).Matched := by
  intro query member
  rcases (Engine.ask_spec asks).2 query member with member | ⟨last, same⟩
  · obtain ⟨before, served, same⟩ := matched query member
    have within := (List.getElem?_eq_some_iff.mp served).1
    exact ⟨before, (List.getElem?_append_left within).trans served, same⟩
  · refine ⟨pull, ?_, same.symm⟩
    rw [last]
    exact List.getElem?_concat_length

/-- A query that goes on stays with its file. -/
theorem Matched.resume (matched : dialogue.Matched) {query : Query}
    (waits : query ∈ dialogue.engine.queries) {pull : Pull} {engine : Engine α}
    (goesOn : dialogue.engine.resume query = some engine) :
    (dialogue.afterResume query.handle pull engine).Matched := by
  intro other member
  obtain ⟨before, waited, named, about⟩ := (Engine.resume_spec waits goesOn).2 other member
  rw [named, about]
  exact matched before waited

/-! ## What holds of every dialogue -/

/-- What holds of every dialogue. -/
structure Sound (env : Environment α) (dialogue : Dialogue α) : Prop where
  /-- Its world was reached by a run. -/
  run : Run env dialogue.world dialogue.trail
  /-- A query that waits is about the file of its pull. -/
  matched : dialogue.Matched
  /-- A report was made of the outcome that was held for the file of its pull. -/
  held : ∀ delivery ∈ dialogue.reports, ∃ world, Run env world delivery.past ∧
    world.cache.cached? delivery.pull.id = some delivery.snapshot
  /-- Reports were made one after the other. -/
  ordered : dialogue.reports.Pairwise fun earlier later => earlier.past <:+ later.past
  /-- And all of them so far. -/
  recent : ∀ delivery ∈ dialogue.reports, delivery.past <:+ dialogue.trail

namespace Sound

/-- A dialogue at its start is sound. -/
theorem initial {engine : Engine α} (created : Engine.create env = .ok engine)
    (files : FileSystem) : Sound env (Dialogue.initial engine files) := by
  unfold Engine.create Session.create at created
  split_ifs at created <;> cases created
  exact ⟨.start files, nofun, nofun, List.Pairwise.nil, nofun⟩

/-- Reports of the outcome at hand keep a dialogue sound. -/
theorem deliver (sound : Sound env dialogue) {pull : Pull} {found : List (Snapshot α)}
    (cached : ∀ snapshot ∈ found, dialogue.engine.cache.cached? pull.id = some snapshot)
    (run : Run env next.world next.trail) (later : dialogue.trail <:+ next.trail)
    (matched : next.Matched) (reports : next.reports = dialogue.deliver pull found) :
    Sound env next := by
  -- What is new was looked up just now, after all the others.
  have fresh : ∀ delivery ∈ found.map (Delivery.mk pull · dialogue.trail),
      delivery.past = dialogue.trail ∧
        dialogue.engine.cache.cached? delivery.pull.id = some delivery.snapshot := by
    intro delivery member
    obtain ⟨snapshot, among, rfl⟩ := List.mem_map.mp member
    exact ⟨rfl, cached snapshot among⟩
  refine ⟨run, matched, ?_, ?_, ?_⟩ <;> rw [reports, Dialogue.deliver]
  · intro delivery member
    rcases List.mem_append.mp member with member | member
    · exact sound.held delivery member
    · obtain ⟨past, cached⟩ := fresh delivery member
      exact ⟨dialogue.world, past ▸ sound.run, cached⟩
  · refine List.pairwise_append.mpr ⟨sound.ordered, List.pairwise_of_forall_mem_list ?_, ?_⟩
    · intro earlier first later second
      have same : earlier.past = later.past := by
        rw [(fresh earlier first).1, (fresh later second).1]
      exact same ▸ List.suffix_refl _
    · intro earlier first later second
      rw [(fresh later second).1]
      exact sound.recent earlier first
  · intro delivery member
    rcases List.mem_append.mp member with member | member
    · exact (sound.recent delivery member).trans later
    · rw [(fresh delivery member).1]
      exact later

/-- A look-up is a step of the world. -/
theorem look (sound : Sound env dialogue) (id : Identity) {engine : Engine α}
    (looked : engine.session =
      { dialogue.engine.session with cache := (dialogue.engine.cache.lookup id).1 }) :
    Run env ⟨engine.cache, dialogue.files, dialogue.calls⟩
      ((dialogue.world, .look id) :: dialogue.trail) := by
  have stepped : dialogue.world.step env (.look id) =
      some ⟨engine.cache, dialogue.files, dialogue.calls⟩ := by
    rw [Engine.cache, looked]
    rfl
  exact sound.run.step _ stepped

/-- A pull whose file is looked up keeps a dialogue sound. -/
theorem ask (sound : Sound env dialogue) {pull : Pull} {engine : Engine α}
    {result : Option (Except Error (Snapshot α))}
    (asks : dialogue.engine.ask dialogue.asked.length pull.id = (engine, result)) :
    Sound env (dialogue.afterAsk pull engine result) := by
  have run := sound.look pull.id (Engine.ask_spec asks).1
  refine sound.deliver ?_ run (List.suffix_cons _ _) (sound.matched.ask asks) rfl
  intro snapshot found
  have answered : (dialogue.engine.ask dialogue.asked.length pull.id).2 =
      some (.ok snapshot) := by
    rw [asks]
    cases result with
    | none => cases found
    | some result =>
      cases result with
      | error => cases found
      | ok other => rw [List.mem_singleton.mp found]
  exact Engine.cached_of_ask answered

/-- A query that goes on keeps a dialogue sound. -/
theorem resume (sound : Sound env dialogue) {query : Query}
    (waits : query ∈ dialogue.engine.queries) {pull : Pull}
    (served : dialogue.asked[query.number]? = some pull) {engine : Engine α}
    (goesOn : dialogue.engine.resume query = some engine) :
    Sound env (dialogue.afterResume query.handle pull engine) := by
  have cached : ∀ snapshot ∈ dialogue.engine.answered engine,
      dialogue.engine.cache.cached? pull.id = some snapshot := by
    intro snapshot answered
    -- The pull of that number is about the file for which the query waits.
    obtain ⟨own, found, same⟩ := sound.matched query waits
    cases served.symm.trans found
    rw [same]
    exact Engine.cached_of_answered goesOn answered
  obtain ⟨run, later⟩ : Run env ⟨engine.cache, dialogue.files, dialogue.calls⟩
      (dialogue.resumed query.handle) ∧ dialogue.trail <:+ dialogue.resumed query.handle := by
    unfold Dialogue.resumed
    rcases (Engine.resume_spec waits goesOn).1 with ⟨progress, unchanged⟩ | ⟨progress, looked⟩
    · -- The parse was given up, and nothing was looked up.
      have run := sound.run
      rw [Dialogue.world, Engine.cache, ← unchanged] at run
      cases told : dialogue.engine.cache.progress query.handle with
      | waiting | abandoned => exact ⟨run, List.suffix_refl _⟩
      | finished => exact absurd told progress
    · rw [progress]
      exact ⟨sound.look query.handle.id looked, List.suffix_cons _ _⟩
  exact sound.deliver cached run later (sound.matched.resume waits goesOn) rfl

/-- Every step keeps a dialogue sound. -/
theorem proceed (sound : Sound env dialogue) (proceeds : Proceeds env dialogue next) :
    Sound env next := by
  cases proceeds with
  | stepped taken =>
    exact ⟨sound.run.step _ taken, sound.matched, sound.held, sound.ordered,
      fun delivery member => (sound.recent delivery member).trans (List.suffix_cons _ _)⟩
  | named same =>
    have run := sound.run
    rw [Dialogue.world, ← same] at run
    exact ⟨run, sound.matched, sound.held, sound.ordered, sound.recent⟩
  | asked _ asks => exact sound.ask asks
  | resumed waits served goesOn => exact sound.resume waits served goesOn

end Sound

/-- Every dialogue is sound. -/
theorem Reached.sound (reached : Reached env dialogue) : Sound env dialogue := by
  induction reached with
  | start created files => exact .initial created files
  | step reached happening taken ih => exact ih.proceed (proceeds_of_step taken)

/-! ## The files that URIs name -/

/-- The disks that there have been, latest first. -/
def disks (dialogue : Dialogue α) : List FileSystem :=
  dialogue.files :: dialogue.trail.map fun moment => moment.1.files

/-- Whether on some disk that there has been a URI named that file. -/
def Named (dialogue : Dialogue α) (uri : Uri) (id : Identity) : Prop :=
  ∃ files ∈ dialogue.disks, Identity.ofUri files uri = .ok id

/-- Every step leaves the disks that there have been. -/
theorem Proceeds.disks (proceeds : Proceeds env dialogue next) :
    dialogue.disks ⊆ next.disks := by
  cases proceeds with
  | stepped | asked => exact List.subset_cons_self _ _
  | named => exact List.Subset.refl _
  | @resumed query =>
    have grown : dialogue.trail ⊆ dialogue.resumed query.handle := by
      unfold Dialogue.resumed
      cases dialogue.engine.cache.progress query.handle with
      | finished => exact List.subset_cons_self _ _
      | waiting | abandoned => exact List.Subset.refl _
    exact List.cons_subset_cons _ (List.map_subset _ grown)

/-- The files that are remembered and that pulls are about were once named by their URIs. -/
structure Traced (dialogue : Dialogue α) : Prop where
  /-- So it is for those that the session remembers. -/
  known : ∀ uri id, dialogue.engine.session.identities.get? uri = some id → dialogue.Named uri id
  /-- And for those that have still to be looked up. -/
  begun : ∀ pull ∈ dialogue.begun, dialogue.Named pull.uri pull.id
  /-- And for those that were looked up. -/
  asked : ∀ pull ∈ dialogue.asked, dialogue.Named pull.uri pull.id
  /-- The pulls that were answered are among them. -/
  answered : ∀ delivery ∈ dialogue.reports, delivery.pull ∈ dialogue.asked

namespace Traced

/-- At the start nothing is remembered. -/
theorem initial {engine : Engine α} (created : Engine.create env = .ok engine)
    (files : FileSystem) : Traced (Dialogue.initial engine files) := by
  unfold Engine.create Session.create at created
  split_ifs at created <;> cases created
  exact ⟨nofun, nofun, nofun, nofun⟩

/-- Every step keeps this so. -/
theorem proceed (traced : Traced dialogue) (proceeds : Proceeds env dialogue next) :
    Traced next := by
  -- A URI that named a file on some disk has done so for ever.
  have kept : ∀ {uri id}, dialogue.Named uri id → next.Named uri id := by
    rintro uri id ⟨files, been, named⟩
    exact ⟨files, proceeds.disks been, named⟩
  have recalled : ∀ uri id, dialogue.engine.session.identities.get? uri = some id →
      next.Named uri id := fun uri id held => kept (traced.known uri id held)
  have waiting : ∀ pull ∈ dialogue.begun, next.Named pull.uri pull.id :=
    fun pull member => kept (traced.begun pull member)
  have tended : ∀ pull ∈ dialogue.asked, next.Named pull.uri pull.id :=
    fun pull member => kept (traced.asked pull member)
  -- A report that is new answers the pull that was looked up.
  have delivered : ∀ {pull : Pull} {found} {asked : List Pull}, dialogue.asked ⊆ asked →
      pull ∈ asked → ∀ delivery ∈ dialogue.deliver pull found, delivery.pull ∈ asked := by
    intro pull found asked grown own delivery member
    rcases List.mem_append.mp member with member | member
    · exact grown (traced.answered delivery member)
    · obtain ⟨snapshot, -, rfl⟩ := List.mem_map.mp member
      exact own
  cases proceeds with
  | stepped => exact ⟨recalled, waiting, tended, traced.answered⟩
  | @named session _ recalls begun found =>
    -- What the session has not known before it has found on the disk of now.
    have remembered : ∀ uri id, session.identities.get? uri = some id →
        { dialogue.withSession session dialogue.trail with begun := begun }.Named uri id := by
      intro uri id held
      rcases recalls uri id held with old | new
      · exact recalled uri id old
      · exact ⟨dialogue.files, List.mem_cons_self, new⟩
    refine ⟨remembered, fun pull member => ?_, tended, traced.answered⟩
    rcases found pull member with old | new
    · exact waiting pull old
    · exact remembered _ _ new
  | @asked pull member engine result asks =>
    have same := Engine.identities_of_ask asks
    have last : pull ∈ dialogue.asked ++ [pull] :=
      List.mem_append_right _ (List.mem_singleton.mpr rfl)
    refine ⟨fun uri id held => recalled uri id (same ▸ held),
      fun other found => waiting other (List.mem_of_mem_erase found), fun other found => ?_,
      delivered (List.subset_append_left _ _) last⟩
    rcases List.mem_append.mp found with old | new
    · exact tended other old
    · rw [List.mem_singleton.mp new]
      exact waiting pull member
  | resumed waits served goesOn =>
    have same := Engine.identities_of_resume waits goesOn
    exact ⟨fun uri id held => recalled uri id (same ▸ held), waiting, tended,
      delivered (List.Subset.refl _) (List.mem_of_getElem? served)⟩

end Traced

/-- In every dialogue the files were once named by their URIs. -/
theorem Reached.traced (reached : Reached env dialogue) : Traced dialogue := by
  induction reached with
  | start created files => exact .initial created files
  | step reached happening taken ih => exact ih.proceed (proceeds_of_step taken)

/-! ## The calls of a session are made of steps -/

namespace Reached

/-- Steps that can be taken one after the other lead to a dialogue. -/
theorem play (reached : Reached env dialogue) {happenings : List Happening}
    (played : happenings.foldlM (Dialogue.step env) dialogue = some next) : Reached env next := by
  induction happenings generalizing dialogue with
  | nil =>
    cases played
    exact reached
  | cons happening rest ih =>
    rw [List.foldlM_cons] at played
    obtain ⟨after, taken, played⟩ := Option.bind_eq_some_iff.mp played
    exact ih (reached.step happening taken) played

/-- Actions that can be taken one after the other in the world can be so in the dialogue. -/
theorem follow (reached : Reached env dialogue) {actions : List Action} {world : World α}
    {trail : List (World α × Action)}
    (followed : dialogue.world.follow env dialogue.trail actions = some (world, trail)) :
    Reached env (dialogue.withWorld world trail) := by
  induction actions generalizing dialogue with
  | nil =>
    cases followed
    exact reached
  | cons action rest ih =>
    rw [World.follow] at followed
    split at followed
    · rename_i after taken
      have stepped : dialogue.step env (.act action) =
          some (dialogue.withWorld after ((dialogue.world, action) :: dialogue.trail)) := by
        rw [Dialogue.step, taken]
        rfl
      have further := ih (reached.step _ stepped) followed
      exact further
    · cases followed

/-- Recording the text of a document is made of steps. -/
theorem update (reached : Reached env dialogue) (id : Identity) (document : Document) :
    ∃ trail, Reached env
      (dialogue.withSession (dialogue.engine.session.update id document).1 trail) := by
  obtain ⟨_, trail, followed⟩ :=
    World.follow_update env dialogue.world dialogue.trail id document
  exact ⟨trail, reached.follow followed⟩

/-- A call that finds a file and goes on with it is made of steps, if what it goes on with is. -/
theorem withIdentity {β : Type} (reached : Reached env dialogue) (uri : Uri)
    {onward : Session α → Identity → Session α × Except Error β}
    (goesOn : ∀ session id, Reached env (dialogue.withSession session dialogue.trail) →
      ∃ trail, Reached env (dialogue.withSession (onward session id).1 trail)) :
    ∃ trail, Reached env (dialogue.withSession
      (dialogue.engine.session.withIdentity dialogue.files uri onward).1 trail) := by
  have named := reached.step (.name uri) rfl
  unfold Session.withIdentity
  split <;> rename_i found <;> rw [found] at named
  · exact goesOn _ _ named
  · exact ⟨dialogue.trail, named⟩

variable (reached : Reached env dialogue) (uri : Uri)

include reached

/-- Opening a document is made of steps. -/
theorem opened (language text : String) : ∃ trail, Reached env (dialogue.withSession
    (dialogue.engine.session.opened (env.on dialogue.files) uri language text).1 trail) := by
  unfold Session.opened
  split_ifs
  · exact reached.withIdentity uri fun session id named => named.update id ⟨uri, text⟩
  · exact ⟨dialogue.trail, reached⟩

/-- Changing the text of a document is made of steps. -/
theorem changed (text : String) : ∃ trail, Reached env (dialogue.withSession
    (dialogue.engine.session.changed (env.on dialogue.files) uri text).1 trail) := by
  refine reached.withIdentity uri fun session id named => ?_
  split_ifs
  · exact named.update id ⟨uri, text⟩
  · exact ⟨dialogue.trail, named⟩

/-- Saving a document is made of steps. -/
theorem saved (text : Option String) : ∃ trail, Reached env (dialogue.withSession
    (dialogue.engine.session.saved (env.on dialogue.files) uri text).1 trail) := by
  refine reached.withIdentity uri fun session id named => ?_
  split_ifs
  · cases text with
    | some text => exact named.update id ⟨uri, text⟩
    | none => exact ⟨_, named.step (.act (.request id)) rfl⟩
  · exact ⟨dialogue.trail, named⟩

/-- Closing a document is made of steps. -/
theorem closed : ∃ trail, Reached env (dialogue.withSession
    (dialogue.engine.session.closed (env.on dialogue.files) uri).1 trail) := by
  refine reached.withIdentity uri fun session id named => ?_
  obtain ⟨_, trail, followed⟩ := World.follow_close env
    (dialogue.withSession session dialogue.trail).world dialogue.trail id
  exact ⟨trail, (named.follow followed).step (.forget uri) rfl⟩

omit uri in
/-- Ending the work is made of steps. -/
theorem shutdown : ∃ trail, Reached env
    (dialogue.withSession dialogue.engine.session.shutdown trail) := by
  obtain ⟨_, trail, followed⟩ := World.follow_shutdown env dialogue.world dialogue.trail
  exact ⟨trail, reached.follow followed⟩

end Reached

end Dialogue

end DiagnosticServer
