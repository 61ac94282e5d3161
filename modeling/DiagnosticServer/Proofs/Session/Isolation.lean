import DiagnosticServer.Proofs.Session.Mirror

/-!
# Documents are isolated

What a session does about one document is what it would do if there were no others. Of any run of
calls, pulls and steps of tasks, take what is not about other files: it is again a run, and at each
of its moments the document, its entry and all that the client has seen of it are the same as at the
moment of the whole run that it comes from. Only revisions differ, since those of all files are
drawn from one counter, and they keep their order.

`Dialogue.Mirrors` is what the two runs have in common, and includes more than the client sees: the
tasks, the queries that wait, and what is remembered of URIs. Each stride keeps it
(`Mirrors.stride`, `Mirrors.stray`), so whole runs do (`Mirrors.play`). The worker of a task is no
obstacle, because fewer workers are taken where a file is by itself; nor are source roots, as long
as the parser does not look at them.
-/

namespace DiagnosticServer

variable {α : Type}

open Cache

namespace Dialogue

/-- A pull begins if its URI names a file. -/
theorem step_pull_ok {env : Environment α} {dialogue : Dialogue α} {uri : Uri} {id : Identity}
    (found : (dialogue.engine.session.identity dialogue.files uri).2 = .ok id)
    (previous : Option String) :
    dialogue.step env (.pull uri previous) =
      some { dialogue.withSession (dialogue.engine.session.identity dialogue.files uri).1
        dialogue.trail with begun := ⟨uri, id, previous⟩ :: dialogue.begun } := by
  rw [step]
  generalize dialogue.engine.session.identity dialogue.files uri = result at found ⊢
  obtain ⟨session, answer⟩ := result
  subst found
  rfl

/-- It does not if its URI names none. -/
theorem step_pull_error {env : Environment α} {dialogue : Dialogue α} {uri : Uri} {cause : Error}
    (found : (dialogue.engine.session.identity dialogue.files uri).2 = .error cause)
    (previous : Option String) :
    dialogue.step env (.pull uri previous) =
      some (dialogue.withSession (dialogue.engine.session.identity dialogue.files uri).1
        dialogue.trail) := by
  rw [step]
  generalize dialogue.engine.session.identity dialogue.files uri = result at found ⊢
  obtain ⟨session, answer⟩ := result
  subst found
  rfl

/-- A pull is asked for that has begun, and its file is looked up. -/
theorem step_ask {env : Environment α} {dialogue next : Dialogue α} {pull : Pull}
    (taken : dialogue.step env (.ask pull) = some next) :
    pull ∈ dialogue.begun ∧ next.engine.cache = (dialogue.engine.cache.lookup pull.id).1 := by
  rw [step] at taken
  split_ifs at taken with begun
  generalize asks : dialogue.engine.ask dialogue.asked.length pull.id = result at taken
  cases taken
  exact ⟨begun, congrArg Session.cache (Engine.ask_spec asks).1⟩

/-- A query goes on for a pull that was asked for. -/
theorem step_resume {env : Environment α} {dialogue next : Dialogue α} {number : Nat}
    (taken : dialogue.step env (.resume number) = some next) :
    ∃ pull, dialogue.asked[number]? = some pull := by
  rw [step] at taken
  split at taken
  · exact ⟨_, ‹_›⟩
  · cases taken

/-- Whether a dialogue about a file by itself is the same for the file as the whole dialogue. -/
structure Mirrors (file : Identity) (parses : List (Identity × Nat)) (whole own : Dialogue α) :
    Prop where
  /-- The world is. -/
  world : whole.world.Mirrors file parses own.world
  /-- So is what is remembered of URIs. -/
  session : whole.engine.session.Agrees file whole.files own.engine.session
  /-- So are the pulls that have begun, in some order. -/
  begun : own.begun.Perm
    ((whole.begun.filter fun pull => pull.id = file).map (Pull.rename file parses))
  /-- So are the queries that wait. -/
  queries : Query.Mirrors file parses whole.asked whole.engine.queries own.asked own.engine.queries
  /-- So are the reports that were made. -/
  reports : Delivery.Mirrors file parses whole.reports own.reports

/-- At the start no parse was started. -/
theorem started_initial {env : Environment α} {engine : Engine α}
    (created : Engine.create env = .ok engine) (files : FileSystem) :
    (initial engine files).world.cache.started = [] := by
  unfold Engine.create Session.create at created
  split_ifs at created <;> cases created
  rfl

namespace Mirrors

variable {file : Identity} {parses : List (Identity × Nat)} {env : Environment α}
  {whole own next : Dialogue α} (mirrors : Mirrors file parses whole own)

/-- At the start all is the same. -/
theorem initial {engine : Engine α} (created : Engine.create env = .ok engine) (files : FileSystem)
    (positive : ∀ parse ∈ parses, 0 < parse.2) :
    Mirrors file parses (Dialogue.initial engine files) (Dialogue.initial engine files) := by
  unfold Engine.create Session.create at created
  split_ifs at created <;> cases created
  exact ⟨⟨.empty positive, rfl, rfl⟩, ⟨nofun, fun _ _ => rfl⟩, .nil, ⟨nofun, nofun, rfl, rfl⟩,
    ⟨nofun, rfl⟩⟩

include mirrors

/-- A pull about the file that has begun in the whole has begun where it is by itself. -/
theorem mem_begun {pull : Pull} (begun : pull ∈ whole.begun) (about : pull.id = file) :
    pull.rename file parses ∈ own.begun := by
  rw [mirrors.begun.mem_iff]
  exact List.mem_map_of_mem (List.mem_filter.mpr ⟨begun, decide_eq_true about⟩)

/-- A pull about the file comes to those that have begun in both. -/
theorem begun_cons {pull : Pull} (about : pull.id = file) :
    (pull.rename file parses :: own.begun).Perm
      (((pull :: whole.begun).filter fun pull => pull.id = file).map
        (Pull.rename file parses)) := by
  rw [List.filter_cons_of_pos (by simpa using about), List.map_cons]
  exact mirrors.begun.cons _

/-- A pull about another file comes to those that have begun in the whole. -/
theorem begun_cons_stray {pull : Pull} (other : pull.id ≠ file) :
    own.begun.Perm
      (((pull :: whole.begun).filter fun pull => pull.id = file).map
        (Pull.rename file parses)) := by
  rw [List.filter_cons_of_neg (by simpa using other)]
  exact mirrors.begun

/-- A pull about the file goes from those that have begun in both. -/
theorem begun_erase {pull : Pull} (begun : pull ∈ whole.begun) (about : pull.id = file) :
    (own.begun.erase (pull.rename file parses)).Perm
      (((whole.begun.erase pull).filter fun pull => pull.id = file).map
        (Pull.rename file parses)) := by
  rw [← List.erase_filter]
  have among : pull ∈ whole.begun.filter fun pull => pull.id = file :=
    List.mem_filter.mpr ⟨begun, decide_eq_true about⟩
  -- Two pulls may go by one name, so which of them goes from the list does not matter.
  have split := (List.perm_cons_erase among).map (Pull.rename file parses)
  have gone := (mirrors.begun.trans split).erase (pull.rename file parses)
  rwa [List.map_cons, List.erase_cons_head] at gone

/-- A pull about another file goes from those that have begun in the whole. -/
theorem begun_erase_stray {pull : Pull} (other : pull.id ≠ file) :
    own.begun.Perm (((whole.begun.erase pull).filter fun pull => pull.id = file).map
      (Pull.rename file parses)) := by
  rw [← List.erase_filter, List.erase_of_not_mem]
  · exact mirrors.begun
  · exact fun member => other (of_decide_eq_true (List.mem_filter.mp member).2)

variable (rising : parses.Pairwise fun earlier later => earlier.2 < later.2)
  (accepting : whole.engine.cache.accepting = true)

include rising accepting

/-- The file is asked for in both. -/
theorem ask {pull : Pull} (about : pull.id = file)
    (known : ∀ parse ∈ next.engine.cache.started, parse ∈ parses)
    (taken : whole.step env (.ask pull) = some next) :
    ∃ after, own.step env (.ask (pull.rename file parses)) = some after ∧
      Mirrors file parses next after := by
  subst about
  obtain ⟨begun, grown⟩ := step_ask taken
  rw [grown] at known
  obtain ⟨alike, found, looked, looked', parsed⟩ :=
    mirrors.world.cache.lookup rising accepting known
  have erased := mirrors.begun_erase begun rfl
  have asked := mirrors.queries.ask (rfl : pull.id = pull.id)
  have world := mirrors.world.withCache alike
  have named : (pull.rename pull.id parses).id = pull.id := rfl
  rw [Dialogue.step, if_pos begun] at taken
  rw [Dialogue.step, if_pos (mirrors.mem_begun begun rfl)]
  -- The same is found in both, so the pull is answered in both or waits in both.
  cases found with
  | ready snapshot =>
    have consulted' : own.engine.consult pull.id = _ := Engine.consult_ready looked'
    simp only [Engine.ask, Engine.consult_ready looked] at taken
    simp only [Engine.ask, named, consulted']
    cases taken
    have all : ∀ other ∈ [snapshot], (pull.id, other.revision) ∈ parses :=
      List.forall_mem_singleton.mpr parsed
    exact ⟨_, rfl, world, mirrors.session.congr rfl rfl, erased, asked,
      mirrors.reports.deliver rfl all⟩
  | inFlight handle =>
    have consulted : whole.engine.consult pull.id = _ := Engine.consult_inFlight looked
    have consulted' : own.engine.consult pull.id = _ := Engine.consult_inFlight looked'
    simp only [Engine.ask, consulted] at taken
    simp only [Engine.ask, named, consulted']
    cases taken
    have same : handle.id = pull.id := Engine.id_of_consult consulted
    have waits := asked.wait List.getElem?_concat_length same rfl parsed
    rw [mirrors.queries.place_length] at waits
    exact ⟨_, rfl, world, mirrors.session.congr rfl rfl, erased, waits,
      mirrors.reports.deliver_none⟩

omit accepting in
/-- Another file is asked for in the whole. -/
theorem ask_stray {pull : Pull} (other : pull.id ≠ file)
    (known : ∀ parse ∈ next.engine.cache.started, parse ∈ parses)
    (taken : whole.step env (.ask pull) = some next) : Mirrors file parses next own := by
  rw [(step_ask taken).2] at known
  have alike := mirrors.world.cache.apart rising (.lookup other) known
  have asked := mirrors.queries.ask_stray other
  rw [Dialogue.step] at taken
  split_ifs at taken
  generalize asks : whole.engine.ask whole.asked.length pull.id = result at taken
  obtain ⟨engine, result⟩ := result
  cases taken
  have looked := (Engine.ask_spec asks).1
  refine ⟨⟨?_, mirrors.world.files, mirrors.world.calls⟩, ?_, mirrors.begun_erase_stray other, ?_,
    mirrors.reports.deliver_stray other _⟩
  · change engine.session.cache.Mirrors file parses own.engine.cache
    rw [looked]
    exact alike
  · have kept : engine.session.identities = whole.engine.session.identities := by rw [looked]
    exact mirrors.session.congr kept rfl
  · -- The pull may have to wait, but not for a parse of the file.
    unfold Engine.ask at asks
    split at asks
    · rename_i between answer consulted
      cases asks
      have same := Engine.queries_of_consult consulted
      exact same ▸ asked
    · rename_i between handle consulted
      cases asks
      have same := Engine.queries_of_consult consulted
      have about : handle.id = pull.id := Engine.id_of_consult consulted
      have waits := asked.wait_stray List.getElem?_concat_length about other
      rw [← same] at waits
      exact waits

omit rising accepting in
/-- A query about the file is answered in both. -/
theorem answer {number : Nat} {pull : Pull} (served : whole.asked[number]? = some pull)
    (about : pull.id = file) {cache cache' : Cache α} (alike : cache.Mirrors file parses cache')
    {found : List (Snapshot α)} (parsed : ∀ snapshot ∈ found, (file, snapshot.revision) ∈ parses)
    {result result' : Except Error (Snapshot α)} (given : result.toOption.toList = found)
    (given' : result'.toOption.toList = found.map (Snapshot.rename (rank file parses)))
    (handle handle' : Handle) :
    Mirrors file parses
      (whole.afterResume handle pull ((whole.engine.withCache cache).answer number result))
      (own.afterResume handle' (pull.rename file parses)
        ((own.engine.withCache cache').answer (place file whole.asked number) result')) := by
  refine ⟨mirrors.world.withCache alike, mirrors.session.congr rfl rfl, mirrors.begun,
    mirrors.queries.answer served about, ?_⟩
  unfold Dialogue.afterResume
  dsimp only
  rw [Engine.answered_answer, Engine.answered_answer, given, given']
  · exact mirrors.reports.deliver about parsed
  · rfl
  · rfl

omit rising accepting in
/-- A query about the file waits again in both. -/
theorem again {number : Nat} {pull : Pull} (served : whole.asked[number]? = some pull)
    (about : pull.id = file) {cache cache' : Cache α} (alike : cache.Mirrors file parses cache')
    {found : Handle} (same : found.id = pull.id) (parsed : (file, found.revision) ∈ parses)
    (handle handle' : Handle) :
    Mirrors file parses
      (whole.afterResume handle pull { whole.engine.withCache cache with
        queries := whole.engine.queries.map fun other =>
          if other.number = number then { other with handle := found } else other })
      (own.afterResume handle' (pull.rename file parses) { own.engine.withCache cache' with
        queries := own.engine.queries.map fun other =>
          if other.number = place file whole.asked number
          then { other with handle := found.rename (rank file parses) } else other }) := by
  refine ⟨mirrors.world.withCache alike, mirrors.session.congr rfl rfl, mirrors.begun,
    mirrors.queries.again served same about parsed, ?_⟩
  unfold Dialogue.afterResume
  dsimp only
  rw [Engine.answered_waits, Engine.answered_waits]
  · exact mirrors.reports.deliver_none
  · rfl
  · rfl

/-- A query about the file whose parse has ended looks the file up in both. -/
theorem pursue {query twin : Query} {pull : Pull}
    (served : whole.asked[query.number]? = some pull) (about : pull.id = file)
    (mine : query.handle.id = file) (renamed : twin = query.rename file parses whole.asked)
    (known : ∀ parse ∈ (whole.engine.cache.lookup file).1.started, parse ∈ parses)
    (finished : whole.engine.cache.progress query.handle = .finished)
    (finished' : own.engine.cache.progress twin.handle = .finished)
    {engine : Engine α} (goesOn : whole.engine.Resumes query engine) :
    ∃ engine', own.engine.Resumes twin engine' ∧
      Mirrors file parses (whole.afterResume query.handle pull engine)
        (own.afterResume twin.handle (pull.rename file parses) engine') := by
  have mine' : twin.handle.id = file := renamed ▸ mine
  have placed : twin.number = place file whole.asked query.number := by
    rw [renamed]
    rfl
  obtain ⟨alike, found, looked, looked', parsed⟩ :=
    mirrors.world.cache.lookup rising accepting known
  cases found with
  | ready snapshot =>
    have consulted : whole.engine.consult query.handle.id =
        (whole.engine.withCache (whole.engine.cache.lookup file).1, .done (.ok snapshot)) := by
      rw [mine]
      exact Engine.consult_ready looked
    have consulted' : own.engine.consult twin.handle.id =
        (own.engine.withCache (own.engine.cache.lookup file).1,
          .done (.ok (snapshot.rename (rank file parses)))) := by
      rw [mine']
      exact Engine.consult_ready looked'
    have all : ∀ other ∈ [snapshot], (file, other.revision) ∈ parses :=
      List.forall_mem_singleton.mpr parsed
    cases goesOn with
    | told progress => cases finished.symm.trans progress
    | waits _ consults => cases consulted.symm.trans consults
    | answered _ consults =>
      cases consulted.symm.trans consults
      refine ⟨_, .answered finished' consulted', ?_⟩
      rw [placed]
      exact mirrors.answer served about alike all rfl rfl _ _
  | inFlight handle =>
    have consulted : whole.engine.consult query.handle.id =
        (whole.engine.withCache (whole.engine.cache.lookup file).1, .waits handle) := by
      rw [mine]
      exact Engine.consult_inFlight looked
    have consulted' : own.engine.consult twin.handle.id =
        (own.engine.withCache (own.engine.cache.lookup file).1,
          .waits (handle.rename (rank file parses))) := by
      rw [mine']
      exact Engine.consult_inFlight looked'
    have same : handle.id = pull.id :=
      (Engine.id_of_consult consulted).trans (mine.trans about.symm)
    cases goesOn with
    | told progress => cases finished.symm.trans progress
    | answered _ consults => cases consulted.symm.trans consults
    | waits _ consults =>
      cases consulted.symm.trans consults
      refine ⟨_, .waits finished' consulted', ?_⟩
      rw [placed]
      exact mirrors.again served about alike same parsed _ _

/-- A query about the file goes on in both. -/
theorem resume (coherent : whole.engine.cache.Coherent) {number : Nat} {pull : Pull}
    (served : whole.asked[number]? = some pull) (about : pull.id = file)
    (known : ∀ parse ∈ next.engine.cache.started, parse ∈ parses)
    (taken : whole.step env (.resume number) = some next) :
    ∃ after, own.step env (.resume (place file whole.asked number)) = some after ∧
      Mirrors file parses next after := by
  simp only [Dialogue.step, served] at taken
  split at taken
  · rename_i query pull' found same
    cases same
    obtain ⟨engine, goesOn, rfl⟩ := Option.map_eq_some_iff.mp taken
    obtain rfl : query.number = number := by simpa using List.find?_some found
    have waits := List.mem_of_find?_eq_some found
    obtain ⟨found', served'⟩ := mirrors.queries.find served about found
    obtain ⟨own', matched, same⟩ := mirrors.queries.matched query waits
    cases served.symm.trans matched
    have mine : query.handle.id = file := same.symm.trans about
    generalize renamed : query.rename file parses whole.asked = twin at found'
    -- The query's twin hears the same of the parse for which it waits.
    have told : own.engine.cache.progress twin.handle =
        whole.engine.cache.progress query.handle := by
      rw [← renamed]
      exact mirrors.world.cache.progress rising coherent.registered
        (mirrors.queries.awaited query waits mine)
    have goes : ∃ engine', own.engine.Resumes twin engine' ∧
        Mirrors file parses (whole.afterResume query.handle pull engine)
          (own.afterResume twin.handle (pull.rename file parses) engine') := by
      cases progress : whole.engine.cache.progress query.handle with
      | waiting =>
        rw [Engine.resume, progress] at goesOn
        cases goesOn
      | abandoned =>
        cases Engine.resumes_iff.mp goesOn with
        | answered ended | waits ended => cases progress.symm.trans ended
        | told =>
          have none : ∀ other ∈ ([] : List (Snapshot α)), (file, other.revision) ∈ parses :=
            List.forall_mem_nil _
          -- An error is no report, so the client is shown nothing of it in either.
          refine ⟨_, .told (told.trans progress), ?_⟩
          rw [← renamed]
          exact mirrors.answer served about mirrors.world.cache none rfl rfl _ _
      | finished =>
        have known' : ∀ parse ∈ (whole.engine.cache.lookup file).1.started, parse ∈ parses := by
          change ∀ parse ∈ engine.session.cache.started, parse ∈ parses at known
          rcases (Engine.resume_spec waits goesOn).1 with ⟨other, -⟩ | ⟨-, looked⟩
          · exact absurd progress other
          · rwa [looked, mine] at known
        exact mirrors.pursue rising accepting served about mine renamed.symm known' progress
          (told.trans progress) (Engine.resumes_iff.mp goesOn)
    obtain ⟨engine', resumes, alike⟩ := goes
    refine ⟨_, ?_, alike⟩
    simp only [Dialogue.step, found', served', Engine.resumes_iff.mpr resumes, Option.map_some]
  · cases taken

omit accepting in
/-- A query about another file goes on in the whole. -/
theorem resume_stray {number : Nat} {pull : Pull} (served : whole.asked[number]? = some pull)
    (other : pull.id ≠ file) (known : ∀ parse ∈ next.engine.cache.started, parse ∈ parses)
    (taken : whole.step env (.resume number) = some next) : Mirrors file parses next own := by
  simp only [Dialogue.step, served] at taken
  split at taken
  · rename_i query pull' found same
    cases same
    obtain ⟨engine, goesOn, rfl⟩ := Option.map_eq_some_iff.mp taken
    obtain rfl : query.number = number := by simpa using List.find?_some found
    have waits := List.mem_of_find?_eq_some found
    obtain ⟨own', matched, same⟩ := mirrors.queries.matched query waits
    cases served.symm.trans matched
    have foreign : query.handle.id ≠ file := same ▸ other
    have kept := Engine.identities_of_resume waits goesOn
    refine ⟨⟨?_, mirrors.world.files, mirrors.world.calls⟩, mirrors.session.congr kept rfl,
      mirrors.begun, ?_, mirrors.reports.deliver_stray other _⟩
    · change engine.session.cache.Mirrors file parses own.engine.cache
      change ∀ parse ∈ engine.session.cache.started, parse ∈ parses at known
      rcases (Engine.resume_spec waits goesOn).1 with ⟨-, idle⟩ | ⟨-, looked⟩
      · rw [idle]
        exact mirrors.world.cache
      · rw [looked] at known ⊢
        exact mirrors.world.cache.apart rising (.lookup foreign) known
    · change Query.Mirrors file parses whole.asked engine.queries own.asked own.engine.queries
      cases Engine.resumes_iff.mp goesOn with
      | told => exact mirrors.queries.answer_stray served other
      | answered _ consulted =>
        rw [Engine.answer, Engine.queries_of_consult consulted]
        exact mirrors.queries.answer_stray served other
      | waits _ consulted =>
        rw [Engine.queries_of_consult consulted]
        exact mirrors.queries.again_stray served ((Engine.id_of_consult consulted).trans same.symm)
          other
  · cases taken

omit rising accepting in
/-- The sessions become others that are alike. -/
theorem withSession {session session' : Session α}
    (alike : session.cache.Mirrors file parses session'.cache)
    (agrees : session.Agrees file whole.files session') (trail trail' : List (World α × Action)) :
    Mirrors file parses (whole.withSession session trail) (own.withSession session' trail') :=
  ⟨mirrors.world.withCache alike, agrees, mirrors.begun, mirrors.queries, mirrors.reports⟩

omit rising accepting in
/-- The session of the whole becomes another one that is alike. -/
theorem withSession_stray {session : Session α}
    (alike : session.cache.Mirrors file parses own.engine.cache)
    (agrees : session.Agrees file whole.files own.engine.session)
    (trail : List (World α × Action)) :
    Mirrors file parses (whole.withSession session trail) own :=
  ⟨⟨alike, mirrors.world.files, mirrors.world.calls⟩, agrees, mirrors.begun, mirrors.queries,
    mirrors.reports⟩

omit rising accepting in
/-- A URI that does not name another file is found in both. -/
theorem name {uri : Uri} (about : ∀ id, Identity.ofUri whole.files uri = .ok id → id = file) :
    Mirrors file parses
      (whole.withSession (whole.engine.session.identity whole.files uri).1 whole.trail)
      (own.withSession (own.engine.session.identity own.files uri).1 own.trail) := by
  have disk : own.files = whole.files := mirrors.world.files
  rw [disk]
  refine mirrors.withSession ?_ (mirrors.session.identity about).1 _ _
  rw [Session.cache_of_identity, Session.cache_of_identity]
  exact mirrors.world.cache

omit rising accepting in
/-- A URI that names another file is found in the whole. -/
theorem name_stray {uri : Uri} {id : Identity} (named : Identity.ofUri whole.files uri = .ok id)
    (other : id ≠ file) : Mirrors file parses
      (whole.withSession (whole.engine.session.identity whole.files uri).1 whole.trail) own := by
  refine mirrors.withSession_stray ?_ (mirrors.session.identity_stray named other) _
  rw [Session.cache_of_identity]
  exact mirrors.world.cache

omit rising accepting in
/-- A URI is forgotten in both. -/
theorem forget (uri : Uri) : Mirrors file parses
    (whole.withSession ⟨whole.engine.cache, whole.engine.session.identities.erase uri⟩ whole.trail)
    (own.withSession ⟨own.engine.cache, own.engine.session.identities.erase uri⟩ own.trail) := by
  refine mirrors.withSession ?_ (mirrors.session.forget uri) _ _
  exact mirrors.world.cache

omit rising accepting in
/-- A URI that names another file is forgotten in the whole. -/
theorem forget_stray {uri : Uri} {id : Identity} (named : Identity.ofUri whole.files uri = .ok id)
    (other : id ≠ file) : Mirrors file parses (whole.withSession
      ⟨whole.engine.cache, whole.engine.session.identities.erase uri⟩ whole.trail) own := by
  refine mirrors.withSession_stray ?_ (mirrors.session.forget_stray named other) _
  exact mirrors.world.cache

omit rising accepting in
/-- A pull that is not about another file begins in both. -/
theorem pull {uri : Uri} {previous : Option String}
    (about : ∀ id, Identity.ofUri whole.files uri = .ok id → id = file)
    (taken : whole.step env (.pull uri previous) = some next) :
    ∃ after, own.step env (.pull uri (previous.bind (Report.rename? file parses))) = some after ∧
      Mirrors file parses next after := by
  have disk : own.files = whole.files := mirrors.world.files
  have both := mirrors.name about
  obtain ⟨-, found, matching⟩ := mirrors.session.identity about
  have found' : (own.engine.session.identity own.files uri).2 =
      Identity.ofUri whole.files uri := by rw [disk, matching]
  -- A URI that names no file ends the pull in both, with nothing begun.
  cases named : Identity.ofUri whole.files uri with
  | ok id =>
    cases about id named
    rw [step_pull_ok (found.trans named)] at taken
    cases taken
    have begun := mirrors.begun_cons (rfl : (⟨uri, file, previous⟩ : Pull).id = file)
    exact ⟨_, step_pull_ok (found'.trans named) _, { both with begun := begun }⟩
  | error cause =>
    rw [step_pull_error (found.trans named)] at taken
    cases taken
    exact ⟨_, step_pull_error (found'.trans named) _, both⟩

omit rising accepting in
/-- A pull about another file begins in the whole. -/
theorem pull_stray {uri : Uri} {previous : Option String} {id : Identity}
    (named : Identity.ofUri whole.files uri = .ok id) (other : id ≠ file)
    (taken : whole.step env (.pull uri previous) = some next) : Mirrors file parses next own := by
  have after := mirrors.name_stray named other
  have found := (Session.identity_of_recalled (mirrors.session.recalled uri)).1
  rw [step_pull_ok (found.trans named)] at taken
  cases taken
  exact { after with begun := mirrors.begun_cons_stray other }

/-- A call that is not about another file is made in both. -/
theorem call {call : DocumentCall}
    (about : ∀ id, Identity.ofUri whole.files call.uri = .ok id → id = file)
    (known : ∀ parse ∈ next.engine.cache.started, parse ∈ parses)
    (taken : whole.stride env (.call call) = some next) :
    ∃ after, own.stride env (.call call) = some after ∧ Mirrors file parses next after := by
  have disk : own.files = whole.files := mirrors.world.files
  cases taken
  -- The environment of a call is that of the dialogue with the disk as it is.
  have agrees : whole.engine.session.Agrees file (env.on whole.files).files own.engine.session :=
    mirrors.session
  obtain ⟨alike, agreed⟩ := Session.apply_alike agrees mirrors.world.cache rising known accepting
    about
  refine ⟨_, rfl, ?_⟩
  rw [disk]
  exact mirrors.withSession alike agreed _ _

omit accepting in
/-- A call about another file is made in the whole. -/
theorem call_stray {call : DocumentCall} {id : Identity}
    (named : Identity.ofUri whole.files call.uri = .ok id) (other : id ≠ file)
    (known : ∀ parse ∈ next.engine.cache.started, parse ∈ parses)
    (taken : whole.stride env (.call call) = some next) : Mirrors file parses next own := by
  cases taken
  have agrees : whole.engine.session.Agrees file (env.on whole.files).files own.engine.session :=
    mirrors.session
  obtain ⟨alike, agreed⟩ := Session.apply_stray agrees mirrors.world.cache rising known named other
  exact mirrors.withSession_stray alike agreed _

omit accepting in
/-- A step of the world that is not about another file is taken in both. -/
theorem act (oblivious : Oblivious env.parser) (coherent : whole.world.Coherent)
    (fitting : own.world.Coherent) (accepting : next.engine.cache.accepting = true)
    {action : Action} (unedited : ∀ files, action ≠ .edit files)
    (about : ∀ id, action.file? whole.world = some id → id = file)
    (known : ∀ parse ∈ next.engine.cache.started, parse ∈ parses)
    (taken : whole.step env (.act action) = some next) :
    ∃ after, own.step env (.act (action.rename (rank file parses))) = some after ∧
      Mirrors file parses next after := by
  obtain ⟨world, stepped, rfl⟩ := Option.map_eq_some_iff.mp taken
  have disk : world.files = whole.files := World.files_of_step stepped unedited
  obtain ⟨after, stepped', alike⟩ := mirrors.world.step rising stepped known oblivious coherent
    fitting.cache accepting unedited about
  refine ⟨own.withWorld after ((own.world, action.rename (rank file parses)) :: own.trail), ?_,
    alike, ?_, mirrors.begun, mirrors.queries, mirrors.reports⟩
  · rw [Dialogue.step, stepped', Option.map_some]
  · change Session.Agrees file world.files _ _
    rw [disk]
    exact mirrors.session.congr rfl rfl

omit accepting in
/-- A step of the world about another file is taken in the whole. -/
theorem act_stray (coherent : whole.world.Coherent) {action : Action} {id : Identity}
    (about : action.file? whole.world = some id) (other : id ≠ file)
    (known : ∀ parse ∈ next.engine.cache.started, parse ∈ parses)
    (taken : whole.step env (.act action) = some next) : Mirrors file parses next own := by
  have unedited : ∀ files, action ≠ .edit files := by
    rintro files rfl
    cases about
  obtain ⟨world, stepped, rfl⟩ := Option.map_eq_some_iff.mp taken
  have disk : world.files = whole.files := World.files_of_step stepped unedited
  refine ⟨mirrors.world.stray rising stepped known coherent.cache about other, ?_, mirrors.begun,
    mirrors.queries, mirrors.reports⟩
  change Session.Agrees file world.files _ _
  rw [disk]
  exact mirrors.session.congr rfl rfl

/-! ### Strides -/

omit accepting in
/-- A stride that is not about another file is taken in both. -/
theorem stride (oblivious : Oblivious env.parser) (coherent : whole.world.Coherent)
    (fitting : own.world.Coherent) (accepting : next.engine.cache.accepting = true)
    {stride : Stride} (unedited : ∀ files, stride ≠ .small (.act (.edit files)))
    (about : ∀ id, stride.file? whole = some id → id = file)
    (known : ∀ parse ∈ next.engine.cache.started, parse ∈ parses)
    (taken : whole.stride env stride = some next) :
    ∃ after, own.stride env (stride.rename file parses whole.asked) = some after ∧
      Mirrors file parses next after := by
  have before : whole.engine.cache.accepting = true :=
    (precedes_of_stride taken).accepting accepting
  cases stride with
  | call call =>
    refine mirrors.call rising before (fun id named => about id ?_) known taken
    rw [Stride.file?, named]
    rfl
  | small happening =>
    change whole.step env happening = some next at taken
    cases happening with
    | act action =>
      have unchanged : ∀ files, action ≠ .edit files := by
        rintro files rfl
        exact unedited files rfl
      exact mirrors.act rising oblivious coherent fitting accepting unchanged about known taken
    | name uri =>
      cases taken
      refine ⟨_, rfl, mirrors.name fun id named => about id ?_⟩
      rw [Stride.file?, named]
      rfl
    | forget uri =>
      cases taken
      exact ⟨_, rfl, mirrors.forget uri⟩
    | pull uri previous =>
      refine mirrors.pull (fun id named => about id ?_) taken
      rw [Stride.file?, named]
      rfl
    | ask pull => exact mirrors.ask rising before (about pull.id rfl) known taken
    | resume number =>
      obtain ⟨pull, served⟩ := step_resume taken
      refine mirrors.resume rising before coherent.cache served (about pull.id ?_) known taken
      rw [Stride.file?, served]
      rfl

omit accepting in
/-- A stride about another file is taken in the whole. -/
theorem stray (coherent : whole.world.Coherent) {stride : Stride} {id : Identity}
    (about : stride.file? whole = some id) (other : id ≠ file)
    (known : ∀ parse ∈ next.engine.cache.started, parse ∈ parses)
    (taken : whole.stride env stride = some next) : Mirrors file parses next own := by
  cases stride with
  | call call =>
    exact mirrors.call_stray rising (Identity.ofUri_of_toOption about) other known taken
  | small happening =>
    change whole.step env happening = some next at taken
    cases happening with
    | act action => exact mirrors.act_stray rising coherent about other known taken
    | name uri =>
      cases taken
      exact mirrors.name_stray (Identity.ofUri_of_toOption about) other
    | forget uri =>
      cases taken
      exact mirrors.forget_stray (Identity.ofUri_of_toOption about) other
    | pull uri previous =>
      exact mirrors.pull_stray (Identity.ofUri_of_toOption about) other taken
    | ask pull =>
      cases about
      exact mirrors.ask_stray rising other known taken
    | resume number =>
      obtain ⟨pull, served⟩ := step_resume taken
      rw [Stride.file?, served] at about
      cases about
      exact mirrors.resume_stray rising served other known taken

omit accepting in
/-- Of a run of strides, those that are not about other files are a run for the file by itself, and
it comes to a dialogue that is the same for the file. -/
theorem play (oblivious : Oblivious env.parser) (coherent : whole.world.Coherent)
    (fitting : own.world.Coherent) {strides : List Stride}
    (unedited : ∀ files, Stride.small (.act (.edit files)) ∉ strides)
    (accepting : next.engine.cache.accepting = true)
    (known : ∀ parse ∈ next.engine.cache.started, parse ∈ parses)
    (played : strides.foldlM (Dialogue.stride env) whole = some next) :
    ∃ after,
      (whole.restrict env file parses strides).foldlM (Dialogue.stride env) own = some after ∧
      Mirrors file parses next after := by
  -- Both dialogues change from stride to stride, and the parses of the whole run stay fixed.
  induction strides generalizing whole own with
  | nil =>
    cases played
    exact ⟨own, rfl, mirrors⟩
  | cons stride rest ih =>
    rw [List.foldlM_cons] at played
    obtain ⟨between, taken, played⟩ := Option.bind_eq_some_iff.mp played
    -- What is known of the end holds of the dialogue in between too.
    have later := precedes_of_strides played
    have accepting' : between.engine.cache.accepting = true := later.accepting accepting
    have known' : ∀ parse ∈ between.engine.cache.started, parse ∈ parses :=
      fun parse member => known parse (later.started.subset member)
    have coherent' := (precedes_of_stride taken).coherent coherent
    have unedited' : ∀ files, Stride.small (.act (.edit files)) ∉ rest :=
      fun files member => unedited files (List.mem_cons_of_mem _ member)
    simp only [restrict, taken]
    split_ifs with about
    · have unchanged : ∀ files, stride ≠ .small (.act (.edit files)) := by
        rintro files rfl
        exact unedited files List.mem_cons_self
      have mine : ∀ id, stride.file? whole = some id → id = file := by
        intro id names
        rw [names] at about
        exact of_decide_eq_true about
      obtain ⟨after, taken', alike⟩ := mirrors.stride rising oblivious coherent fitting accepting'
        unchanged mine known' taken
      -- The file by itself has taken a stride of its own, so what it came to is coherent too.
      have fitting' := (precedes_of_stride taken').coherent fitting
      rw [List.foldlM_cons, taken']
      exact ih alike coherent' fitting' unedited' played
    · obtain ⟨id, names, other⟩ : ∃ id, stride.file? whole = some id ∧ id ≠ file := by
        cases names : stride.file? whole with
        | none =>
          rw [names] at about
          exact absurd rfl about
        | some id =>
          rw [names] at about
          exact ⟨id, rfl, fun same => about (decide_eq_true same)⟩
      have alike := mirrors.stray rising coherent names other known' taken
      exact ih alike coherent' fitting unedited' played

end Mirrors

/-- What is left of the first strides is the first part of what is left of all. -/
theorem restrict_prefix (env : Environment α) (file : Identity) (parses : List (Identity × Nat))
    (dialogue : Dialogue α) (earlier later : List Stride) :
    dialogue.restrict env file parses earlier <+:
      dialogue.restrict env file parses (earlier ++ later) := by
  induction earlier generalizing dialogue with
  | nil => exact List.nil_prefix
  | cons stride rest ih =>
    simp only [List.cons_append, restrict]
    cases dialogue.stride env stride with
    | none => exact List.prefix_refl _
    | some next =>
      dsimp only
      split_ifs
      · exact List.prefix_cons_inj _ |>.mpr (ih next)
      · exact ih next

/-! ## What the client sees of a file -/

end Dialogue

/-- A report under another name. -/
def Report.withName (name : String) : Report → Report
  | full _ items => .full name items
  | unchanged _ => .unchanged name

/-- What the client sees of a report if revisions are others: the URI that was asked for, the report
under its other name, and the diagnostics for which it stands. -/
def Delivery.seen (env : Environment α) (change : Nat → Nat) (delivery : Delivery α) :
    Uri × Report × List Diagnostic :=
  (delivery.pull.uri,
    (delivery.report env).withName (Report.nameOf (change delivery.snapshot.revision)),
    delivery.items env)

/-- Where a file is by itself, the report on an outcome is the same but for its name. -/
theorem Report.withName_ofOutcome {file : Identity} {parses : List (Identity × Nat)}
    {revision : Nat} (parsed : (file, revision) ∈ parses) (source name : String)
    (outcome : Outcome α) (previous : Option String) :
    (ofOutcome source (rank file parses revision) outcome
        (previous.bind (rename? file parses))).withName name =
      (ofOutcome source revision outcome previous).withName name := by
  unfold ofOutcome
  simp only [rename?_eq_iff parsed]
  split_ifs <;> rfl

namespace Dialogue

/-- Whether a dialogue shows of a file what another one shows of it, but for the revisions. -/
structure Resembles (env : Environment α) (file : Identity) (change : Nat → Nat)
    (whole own : Dialogue α) : Prop where
  /-- The open document is the same, with its text and its URI. -/
  document : own.engine.cache.documents.get? file = whole.engine.cache.documents.get? file
  /-- The entry is the same. -/
  entry : own.engine.cache.entries.get? file =
    (whole.engine.cache.entries.get? file).map (Entry.rename change)
  /-- The client was sent the same, in the same order. -/
  pushes : own.engine.cache.pushes file =
    (whole.engine.cache.pushes file).map (Event.rename change)
  /-- Its pulls were answered with the same reports, in the same order. -/
  reports : own.reports.map (Delivery.seen env id) =
    (whole.reports.filter fun delivery => delivery.pull.id = file).map (Delivery.seen env change)

/-- Dialogues that are the same for a file show the same of it. -/
theorem Mirrors.resembles {file : Identity} {parses : List (Identity × Nat)}
    {whole own : Dialogue α} (mirrors : Mirrors file parses whole own) (env : Environment α) :
    Resembles env file (rank file parses) whole own := by
  refine ⟨mirrors.world.cache.document, mirrors.world.cache.entry, mirrors.world.cache.pushes, ?_⟩
  -- What is seen of a report depends on the pull and the outcome alone.
  let shown (found : Pull × Snapshot α) : Uri × Report × List Diagnostic :=
    (⟨found.1, found.2, []⟩ : Delivery α).seen env id
  calc own.reports.map (Delivery.seen env id)
      = (own.reports.map fun delivery => (delivery.pull, delivery.snapshot)).map shown := by
        rw [List.map_map]
        rfl
    _ = ((whole.reports.filter fun delivery => delivery.pull.id = file).map fun delivery =>
          (delivery.pull.rename file parses, delivery.snapshot.rename (rank file parses))).map
            shown := by
        rw [mirrors.reports.same]
    _ = (whole.reports.filter fun delivery => delivery.pull.id = file).map
          (Delivery.seen env (rank file parses)) := by
        rw [List.map_map]
        refine List.map_congr_left fun delivery found => ?_
        obtain ⟨member, about⟩ := List.mem_filter.mp found
        have parsed := mirrors.reports.stored delivery member (of_decide_eq_true about)
        have same := Report.withName_ofOutcome parsed env.options.diagnosticSource
          (Report.nameOf (rank file parses delivery.snapshot.revision)) delivery.snapshot.outcome
          delivery.pull.previous
        exact congrArg (fun report => (delivery.pull.uri, report, delivery.items env)) same

/-- If a parser does not look at source roots and the disk does not change, then as long as parses
may be started documents are isolated: what is not about other files than one is a run by itself,
and at each moment of the whole run it has come to a dialogue that shows the same of the file, with
revisions renamed in their order. -/
theorem documents_isolated {env : Environment α} {engine : Engine α} {files : FileSystem}
    {strides : List Stride} {final : Dialogue α} (oblivious : Oblivious env.parser)
    (created : Engine.create env = .ok engine)
    (played : strides.foldlM (stride env) (initial engine files) = some final)
    (unedited : ∀ disk, Stride.small (.act (.edit disk)) ∉ strides)
    (accepting : final.engine.cache.accepting = true) (file : Identity) :
    (∀ earlier later, earlier < later → (file, later) ∈ final.engine.cache.started →
      rank file final.engine.cache.started earlier < rank file final.engine.cache.started later) ∧
    ∀ earlier later, strides = earlier ++ later → ∃ whole own,
      earlier.foldlM (stride env) (initial engine files) = some whole ∧
      ((initial engine files).restrict env file final.engine.cache.started earlier).foldlM
        (stride env) (initial engine files) = some own ∧
      (initial engine files).restrict env file final.engine.cache.started earlier <+:
        (initial engine files).restrict env file final.engine.cache.started strides ∧
      Resembles env file (rank file final.engine.cache.started) whole own := by
  refine ⟨fun earlier later => rank_lt_rank, fun earlier later all => ?_⟩
  subst all
  have coherent : (initial engine files).world.Coherent :=
    (Sound.initial created files).run.coherent
  -- The revisions of the whole run are fixed beforehand, so that renaming them does not change on
  -- the way.
  have run := precedes_of_strides played
  have rising := (run.coherent coherent).cache.rising
  have positive : ∀ parse ∈ final.engine.cache.started, 0 < parse.2 := by
    refine run.positive fun parse member => ?_
    rw [started_initial created files] at member
    cases member
  have start : Mirrors file final.engine.cache.started (initial engine files)
      (initial engine files) := .initial created files positive
  -- The first part of the run comes to a dialogue after which parses may still be started.
  rw [List.foldlM_append] at played
  obtain ⟨whole, first, rest⟩ := Option.bind_eq_some_iff.mp played
  have further := precedes_of_strides rest
  have unchanged : ∀ disk, Stride.small (.act (.edit disk)) ∉ earlier :=
    fun disk member => unedited disk (List.mem_append_left _ member)
  obtain ⟨own, second, mirrors⟩ := start.play rising oblivious coherent coherent unchanged
    (further.accepting accepting) (fun parse member => further.started.subset member) first
  exact ⟨whole, own, first, second, restrict_prefix .., mirrors.resembles env⟩

end Dialogue

namespace Trial

/-- A dialogue that has not begun. -/
def outset : Dialogue Unit := .initial ⟨⟨Cache.empty, Table.empty⟩, [], []⟩ (env 1).files

/-- The steps of the task of that revision until its parser has ended. -/
def toil (revision : Nat) : List Stride :=
  [.small (.act (.move revision .assignWorker)), .small (.act (.move revision .readDocument)),
    .small (.act (.move revision .launch)), .small (.act (.move revision .complete))]

/-- Two documents are opened. While the second one waits for the worker, the first is parsed,
changed and pulled. The second is parsed and pulled twice, changed and parsed again. -/
def bustle : List Stride :=
  [.call (.opened otherAddress "java" "sound"), .call (.opened address "java" "unsound")] ++
  toil 1 ++
  [.call (.changed otherAddress "unsound"), .small (.act (.move 1 .store)),
    .small (.pull otherAddress none), .small (.ask ⟨otherAddress, otherFile, none⟩)] ++
  toil 2 ++
  [.small (.pull address none), .small (.ask ⟨address, file, none⟩),
    .small (.act (.move 2 .store)), .small (.resume 1), .small (.pull address (some "2")),
    .small (.ask ⟨address, file, some "2"⟩), .call (.changed address "sound"),
    .small (.act (.move 2 .publish))] ++
  toil 4 ++
  [.small (.act (.move 4 .store)), .small (.act (.move 4 .publish))]

end Trial

namespace Dialogue

open Trial in
/-- Beside a document that is parsed twice, the parses of the other one have the revisions 2 and 4.
By itself it has the revisions 1 and 2, and the client sees the same. -/
theorem documents_isolated_beside_busy_neighbour : ∃ final own outcome,
    bustle.foldlM (stride (env 1)) outset = some final ∧
    final.engine.cache.started = [(otherFile, 1), (file, 2), (otherFile, 3), (file, 4)] ∧
    (outset.restrict (env 1) file final.engine.cache.started bustle).foldlM (stride (env 1))
      outset = some own ∧
    own.engine.cache.documents.get? file = some (document "sound") ∧
    final.engine.cache.entries.get? file = some (.ready 4 outcome) ∧
    own.engine.cache.entries.get? file = some (.ready 2 outcome) ∧
    own.reports.map (Delivery.seen (env 1) id) =
      [(address, .full "1" [complaint], [complaint]), (address, .unchanged "1", [complaint])] := by
  have played : ((bustle.foldlM (stride (env 1)) outset).map fun dialogue =>
      (dialogue.engine.cache.started, dialogue.engine.cache.accepting,
        dialogue.engine.cache.documents.get? file,
        (dialogue.engine.cache.cached? file).map Snapshot.revision)) =
      some ([(otherFile, 1), (file, 2), (otherFile, 3), (file, 4)], true, some (document "sound"),
        some 4) := by
    decide +kernel
  have answered : ((bustle.foldlM (stride (env 1)) outset).map fun dialogue =>
      (dialogue.reports.filter fun delivery => delivery.pull.id = file).map (Delivery.seen (env 1)
        (rank file [(otherFile, 1), (file, 2), (otherFile, 3), (file, 4)]))) =
      some [(address, .full "1" [complaint], [complaint]),
        (address, .unchanged "1", [complaint])] := by
    decide +kernel
  have unedited : ∀ disk, Stride.small (.act (.edit disk)) ∉ bustle := by
    simp [bustle, toil]
  obtain ⟨final, went, seen⟩ := Option.map_eq_some_iff.mp played
  rw [went, Option.map_some] at answered
  simp only [Prod.mk.injEq] at seen
  obtain ⟨started, accepting, opened, cached⟩ := seen
  obtain ⟨snapshot, held, latest⟩ := Option.map_eq_some_iff.mp cached
  have created : Engine.create (env 1) = .ok ⟨⟨Cache.empty, Table.empty⟩, [], []⟩ := rfl
  have oblivious : Oblivious (env 1).parser := fun _ _ _ _ => rfl
  obtain ⟨-, isolated⟩ := documents_isolated oblivious created went unedited accepting file
  obtain ⟨whole, own, first, second, -, resembles⟩ := isolated bustle [] (List.append_nil _).symm
  cases went.symm.trans first
  have entry := cached?_eq_some.mp held
  rw [latest] at entry
  have same := resembles.entry
  have reports := resembles.reports
  rw [started] at same reports
  refine ⟨final, own, snapshot.outcome, went, started, second, ?_, entry, ?_, ?_⟩
  · rw [resembles.document, opened]
  · rw [same, entry]
    rfl
  · rw [reports]
    exact Option.some.inj answered

end Dialogue

end DiagnosticServer
