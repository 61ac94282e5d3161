import DiagnosticServer.Proofs.Session.Strides

/-!
# What a session holds of one file

A session remembers the files that URIs name, the queries that wait and the reports that were made.
`Session.Agrees`, `Query.Mirrors` and `Delivery.Mirrors` say of each that where a file is by itself
it is what the whole session has of the file. Whatever is done for the file in both keeps it so, and
whatever is done for another file leaves it so. The calls about documents are no exception:
`Session.apply_alike` and `Session.apply_stray`.
-/

namespace DiagnosticServer

variable {α : Type}

open Cache

/-! ## The files that URIs name -/

/-- Whether a session of its own remembers of a file what the whole session remembers of it. -/
structure Session.Agrees (file : Identity) (files : FileSystem) (whole own : Session α) :
    Prop where
  /-- What is remembered is so on the disk. -/
  recalled : ∀ uri id, whole.identities.get? uri = some id → Identity.ofUri files uri = .ok id
  /-- The same is remembered of a URI that does not name another file. -/
  same : ∀ uri, (∀ id, Identity.ofUri files uri = .ok id → id = file) →
    own.identities.get? uri = whole.identities.get? uri

/-- Where what is remembered is so on the disk, a URI names the file that it names there, and is
remembered with it. -/
theorem Session.identity_of_recalled {session : Session α} {files : FileSystem} {uri : Uri}
    (recalled : ∀ id, session.identities.get? uri = some id → Identity.ofUri files uri = .ok id) :
    (session.identity files uri).2 = Identity.ofUri files uri ∧
      ∀ other, (session.identity files uri).1.identities.get? other =
        if other = uri then (Identity.ofUri files uri).toOption
        else session.identities.get? other := by
  unfold identity
  cases known : session.identities.get? uri with
  | some id =>
    have named := recalled id known
    refine ⟨named.symm, fun other => ?_⟩
    split_ifs with own
    · rw [own, known, named]
      rfl
    · rfl
  | none =>
    cases named : Identity.ofUri files uri with
    | ok id =>
      refine ⟨rfl, fun other => ?_⟩
      rw [Table.get?_insert]
      rfl
    | error cause =>
      -- A URI that names no file is not remembered.
      refine ⟨rfl, fun other => ?_⟩
      split_ifs with own
      · rw [own, known]
        rfl
      · rfl

namespace Session.Agrees

variable {file : Identity} {files : FileSystem} {whole own : Session α}
  (agrees : Agrees file files whole own) {uri : Uri}

include agrees

/-- What the session finds is so on the disk. -/
theorem recalled_identity (uri : Uri) :
    ∀ other id, (whole.identity files uri).1.identities.get? other = some id →
      Identity.ofUri files other = .ok id := by
  intro other id found
  rw [(identity_of_recalled (agrees.recalled uri)).2] at found
  split_ifs at found with same
  · rw [same]
    exact Identity.ofUri_of_toOption found
  · exact agrees.recalled other id found

/-- A URI that does not name another file is found in both. -/
theorem identity (about : ∀ id, Identity.ofUri files uri = .ok id → id = file) :
    Agrees file files (whole.identity files uri).1 (own.identity files uri).1 ∧
      (whole.identity files uri).2 = Identity.ofUri files uri ∧
      (own.identity files uri).2 = Identity.ofUri files uri := by
  have known : ∀ id, own.identities.get? uri = some id → Identity.ofUri files uri = .ok id := by
    rw [agrees.same uri about]
    exact agrees.recalled uri
  obtain ⟨found, after⟩ := identity_of_recalled (agrees.recalled uri)
  obtain ⟨found', after'⟩ := identity_of_recalled known
  refine ⟨⟨agrees.recalled_identity uri, fun other minds => ?_⟩, found, found'⟩
  rw [after, after']
  split_ifs
  · rfl
  · exact agrees.same other minds

/-- A URI that names another file is found in the whole. -/
theorem identity_stray {id : Identity} (named : Identity.ofUri files uri = .ok id)
    (other : id ≠ file) : Agrees file files (whole.identity files uri).1 own := by
  refine ⟨agrees.recalled_identity uri, fun address minds => ?_⟩
  rw [(identity_of_recalled (agrees.recalled uri)).2, if_neg]
  · exact agrees.same address minds
  · rintro rfl
    exact other (minds id named)

/-- Only what is remembered of URIs matters. -/
theorem congr {next next' : Session α} (kept : next.identities = whole.identities)
    (kept' : next'.identities = own.identities) : Agrees file files next next' := by
  refine ⟨?_, ?_⟩
  · rw [kept]
    exact agrees.recalled
  · rw [kept, kept']
    exact agrees.same

/-- A URI is forgotten in both. -/
theorem forget (uri : Uri) {first last : Cache α} :
    Agrees file files ⟨first, whole.identities.erase uri⟩ ⟨last, own.identities.erase uri⟩ := by
  refine ⟨fun other id found => ?_, fun other minds => ?_⟩
  · rw [Table.get?_erase] at found
    split_ifs at found
    exact agrees.recalled other id found
  · rw [Table.get?_erase, Table.get?_erase]
    split_ifs
    · rfl
    · exact agrees.same other minds

/-- A URI that names another file is forgotten in the whole. -/
theorem forget_stray {id : Identity} (named : Identity.ofUri files uri = .ok id)
    (other : id ≠ file) {cache : Cache α} :
    Agrees file files ⟨cache, whole.identities.erase uri⟩ own := by
  refine ⟨fun address found known => ?_, fun address minds => ?_⟩
  · rw [Table.get?_erase] at known
    split_ifs at known
    exact agrees.recalled address found known
  · rw [Table.get?_erase, if_neg]
    · exact agrees.same address minds
    · rintro rfl
      exact other (minds id named)

end Session.Agrees

/-! ## The queries that wait -/

/-- Whether those who wait for a file where it is by itself are those who wait for it in the whole.
-/
structure Query.Mirrors (file : Identity) (parses : List (Identity × Nat)) (asked : List Pull)
    (queries : List Query) (asked' : List Pull) (queries' : List Query) : Prop where
  /-- A query that waits is about the file of its pull. -/
  matched : ∀ query ∈ queries, ∃ pull, asked[query.number]? = some pull ∧
    pull.id = query.handle.id
  /-- The parses that are waited for are known. -/
  awaited : ∀ query ∈ queries, query.handle.id = file → (file, query.handle.revision) ∈ parses
  /-- The pulls are those about the file. -/
  pulls : asked' = (asked.filter fun pull => pull.id = file).map (Pull.rename file parses)
  /-- So are the queries. -/
  waiting : queries' =
    (queries.filter fun query => query.handle.id = file).map (Query.rename file parses asked)

namespace Query.Mirrors

variable {file : Identity} {parses : List (Identity × Nat)} {asked asked' : List Pull}
  {queries queries' : List Query} (mirrors : Mirrors file parses asked queries asked' queries')
  {pull : Pull} {number : Nat}

include mirrors

/-- The queries that wait have their numbers from pulls that there were. -/
theorem number_le {query : Query} (member : query ∈ queries) : query.number ≤ asked.length := by
  obtain ⟨pull, found, -⟩ := mirrors.matched query member
  exact Nat.le_of_lt (List.getElem?_eq_some_iff.mp found).1

/-- Queries keep their places when one more file is asked for. -/
theorem matched_append (pull : Pull) : ∀ query ∈ queries, ∃ own,
    (asked ++ [pull])[query.number]? = some own ∧ own.id = query.handle.id := by
  intro query member
  obtain ⟨own, found, about⟩ := mirrors.matched query member
  have within := (List.getElem?_eq_some_iff.mp found).1
  exact ⟨own, (List.getElem?_append_left within).trans found, about⟩

/-- And their other names too. -/
theorem rename_append (pull : Pull) :
    (queries.filter fun query => query.handle.id = file).map
        (Query.rename file parses (asked ++ [pull])) = queries' := by
  rw [mirrors.waiting]
  refine List.map_congr_left fun query found => ?_
  rw [Query.rename, Query.rename,
    place_append (mirrors.number_le (List.mem_filter.mp found).1)]

/-- The file is asked for in both. -/
theorem ask (about : pull.id = file) :
    Mirrors file parses (asked ++ [pull]) queries (asked' ++ [pull.rename file parses])
      queries' := by
  refine ⟨mirrors.matched_append pull, mirrors.awaited, ?_, (mirrors.rename_append pull).symm⟩
  rw [mirrors.pulls, List.filter_append, List.map_append,
    List.filter_cons_of_pos (by simpa using about)]
  rfl

/-- Another file is asked for in the whole. -/
theorem ask_stray (other : pull.id ≠ file) :
    Mirrors file parses (asked ++ [pull]) queries asked' queries' := by
  refine ⟨mirrors.matched_append pull, mirrors.awaited, ?_, (mirrors.rename_append pull).symm⟩
  rw [mirrors.pulls, List.filter_append, List.filter_cons_of_neg (by simpa using other),
    List.filter_nil, List.append_nil]

/-- The next number where the file is by itself is the place of the next pull. -/
theorem place_length (pull : Pull) :
    place file (asked ++ [pull]) asked.length = asked'.length := by
  rw [place, List.take_left, List.countP_eq_length_filter, mirrors.pulls, List.length_map]

/-- The queries of a pull about the file are those at its place. -/
theorem number_iff (served : asked[number]? = some pull) (about : pull.id = file) {query : Query}
    (member : query ∈ queries) :
    query.handle.id = file ∧ place file asked query.number = place file asked number ↔
      query.number = number := by
  obtain ⟨own, found, same⟩ := mirrors.matched query member
  constructor
  · rintro ⟨mine, placed⟩
    exact eq_of_place found (same.trans mine) served about placed
  · rintro rfl
    cases served.symm.trans found
    exact ⟨same.symm.trans about, rfl⟩

/-- The queries of a pull about another file are not about the file. -/
theorem number_stray (served : asked[number]? = some pull) (other : pull.id ≠ file)
    {query : Query} (member : query ∈ queries) (mine : query.handle.id = file) :
    query.number ≠ number := by
  rintro rfl
  obtain ⟨own, found, same⟩ := mirrors.matched query member
  cases served.symm.trans found
  exact other (same.trans mine)

/-- A query about the file is found at its place. -/
theorem find (served : asked[number]? = some pull) (about : pull.id = file) {query : Query}
    (found : (queries.find? fun query => query.number = number) = some query) :
    (queries'.find? fun query => query.number = place file asked number) =
        some (query.rename file parses asked) ∧
      asked'[place file asked number]? = some (pull.rename file parses) := by
  constructor
  · -- What is found is the first query of its kind, and the same queries are of that kind.
    rw [mirrors.waiting, List.find?_map, ← List.head?_filter, List.filter_filter]
    have same : (queries.filter fun query =>
          ((fun query : Query => decide (query.number = place file asked number)) ∘
            Query.rename file parses asked) query && decide (query.handle.id = file)) =
        queries.filter fun query => query.number = number := by
      refine List.filter_congr fun query member => ?_
      rw [Function.comp_apply, Query.rename, ← Bool.decide_and, decide_eq_decide, and_comm]
      exact mirrors.number_iff served about member
    rw [same, List.head?_filter, found, Option.map_some]
  · rw [mirrors.pulls, List.getElem?_map, getElem?_place served about, Option.map_some]

/-- A query about the file is answered in both. -/
theorem answer (served : asked[number]? = some pull) (about : pull.id = file) :
    Mirrors file parses asked (queries.filter fun query => query.number ≠ number) asked'
      (queries'.filter fun query => query.number ≠ place file asked number) := by
  refine ⟨fun query member => mirrors.matched query (List.mem_filter.mp member).1,
    fun query member => mirrors.awaited query (List.mem_filter.mp member).1, mirrors.pulls, ?_⟩
  rw [mirrors.waiting, List.filter_map, List.filter_filter, List.filter_filter]
  refine congrArg _ (List.filter_congr fun query member => ?_)
  -- Among queries about the file, places tell numbers apart.
  have same := mirrors.number_iff served about member
  rw [Function.comp_apply, Query.rename, ← Bool.decide_and, ← Bool.decide_and, decide_eq_decide]
  constructor
  · rintro ⟨apart, mine⟩
    exact ⟨mine, fun equal => apart (same.mpr equal).2⟩
  · rintro ⟨mine, apart⟩
    exact ⟨fun placed => apart (same.mp ⟨mine, placed⟩), mine⟩

/-- A query about another file is answered in the whole. -/
theorem answer_stray (served : asked[number]? = some pull) (other : pull.id ≠ file) :
    Mirrors file parses asked (queries.filter fun query => query.number ≠ number) asked'
      queries' := by
  refine ⟨fun query member => mirrors.matched query (List.mem_filter.mp member).1,
    fun query member => mirrors.awaited query (List.mem_filter.mp member).1, mirrors.pulls, ?_⟩
  rw [mirrors.waiting, List.filter_filter]
  refine congrArg _ (List.filter_congr fun query member => ?_)
  by_cases mine : query.handle.id = file
  · simp [mine, mirrors.number_stray served other member mine]
  · simp [mine]

section

variable (served : asked[number]? = some pull) {handle : Handle} (same : handle.id = pull.id)

include served same

/-- What holds of queries that wait also does if one more waits for a parse of its file. -/
theorem matched_concat (parsed : pull.id = file → (file, handle.revision) ∈ parses) :
    ∀ query ∈ queries ++ [⟨number, handle⟩],
      (∃ own, asked[query.number]? = some own ∧ own.id = query.handle.id) ∧
        (query.handle.id = file → (file, query.handle.revision) ∈ parses) := by
  intro query member
  rcases List.mem_append.mp member with member | member
  · exact ⟨mirrors.matched query member, mirrors.awaited query member⟩
  · rw [List.mem_singleton.mp member]
    exact ⟨⟨pull, served, same.symm⟩, fun mine => parsed (same.symm.trans mine)⟩

/-- A query waits for the file in both. -/
theorem wait (about : pull.id = file) (parsed : (file, handle.revision) ∈ parses) :
    Mirrors file parses asked (queries ++ [⟨number, handle⟩]) asked'
      (queries' ++ [⟨place file asked number, handle.rename (rank file parses)⟩]) := by
  have kept := mirrors.matched_concat served same fun _ => parsed
  refine ⟨fun query member => (kept query member).1, fun query member => (kept query member).2,
    mirrors.pulls, ?_⟩
  rw [List.filter_append, List.map_append, ← mirrors.waiting,
    List.filter_cons_of_pos (by simpa using same.trans about)]
  rfl

/-- A query waits for another file in the whole. -/
theorem wait_stray (other : pull.id ≠ file) :
    Mirrors file parses asked (queries ++ [⟨number, handle⟩]) asked' queries' := by
  have foreign : handle.id ≠ file := same ▸ other
  have kept := mirrors.matched_concat served same fun mine => absurd mine other
  refine ⟨fun query member => (kept query member).1, fun query member => (kept query member).2,
    mirrors.pulls, ?_⟩
  rw [List.filter_append, List.filter_cons_of_neg (by simpa using foreign), List.filter_nil,
    List.append_nil, mirrors.waiting]

/-- What holds of queries that wait also does if one of them waits for another parse of its file. -/
theorem matched_again (parsed : pull.id = file → (file, handle.revision) ∈ parses) :
    ∀ query ∈ queries.map fun other : Query =>
        if other.number = number then { other with handle := handle } else other,
      (∃ own, asked[query.number]? = some own ∧ own.id = query.handle.id) ∧
        (query.handle.id = file → (file, query.handle.revision) ∈ parses) := by
  intro query member
  obtain ⟨before, found, rfl⟩ := List.mem_map.mp member
  split_ifs with own
  · exact ⟨⟨pull, own ▸ served, same.symm⟩, fun mine => parsed (same.symm.trans mine)⟩
  · exact ⟨mirrors.matched before found, mirrors.awaited before found⟩

/-- The queries about the file are the same ones then. -/
theorem filter_again :
    (queries.map fun other =>
        if other.number = number then { other with handle := handle } else other).filter
        (fun query => query.handle.id = file) =
      (queries.filter fun query => query.handle.id = file).map fun other =>
        if other.number = number then { other with handle := handle } else other := by
  rw [List.filter_map]
  refine congrArg _ (List.filter_congr fun query member => ?_)
  rw [Function.comp_apply]
  split_ifs with own
  · -- The other parse is one of the same file.
    obtain ⟨before, found, about⟩ := mirrors.matched query member
    rw [own, served] at found
    cases found
    rw [same, about]
  · rfl

/-- A query about the file waits for another parse of it in both. -/
theorem again (about : pull.id = file) (parsed : (file, handle.revision) ∈ parses) :
    Mirrors file parses asked
      (queries.map fun other =>
        if other.number = number then { other with handle := handle } else other) asked'
      (queries'.map fun other => if other.number = place file asked number
        then { other with handle := handle.rename (rank file parses) } else other) := by
  have kept := mirrors.matched_again served same fun _ => parsed
  refine ⟨fun query member => (kept query member).1, fun query member => (kept query member).2,
    mirrors.pulls, ?_⟩
  rw [mirrors.waiting, mirrors.filter_again served same, List.map_map, List.map_map]
  refine List.map_congr_left fun query found => ?_
  obtain ⟨member, mine⟩ := List.mem_filter.mp found
  have placed := mirrors.number_iff served about member
  simp only [of_decide_eq_true mine, true_and] at placed
  simp only [Function.comp_apply, Query.rename, placed]
  split_ifs <;> rfl

/-- A query about another file waits for another parse of it in the whole. -/
theorem again_stray (other : pull.id ≠ file) :
    Mirrors file parses asked
      (queries.map fun other =>
        if other.number = number then { other with handle := handle } else other) asked'
      queries' := by
  have kept := mirrors.matched_again served same fun mine => absurd mine other
  refine ⟨fun query member => (kept query member).1, fun query member => (kept query member).2,
    mirrors.pulls, ?_⟩
  rw [mirrors.waiting, mirrors.filter_again served same, List.map_map]
  refine List.map_congr_left fun query found => ?_
  obtain ⟨member, mine⟩ := List.mem_filter.mp found
  rw [Function.comp_apply,
    if_neg (mirrors.number_stray served other member (of_decide_eq_true mine))]

end

end Query.Mirrors

/-! ## The reports that were made -/

/-- Whether the reports where a file is by itself are those on the file in the whole. -/
structure Delivery.Mirrors (file : Identity) (parses : List (Identity × Nat))
    (reports reports' : List (Delivery α)) : Prop where
  /-- The parses that they are about are known. -/
  stored : ∀ delivery ∈ reports, delivery.pull.id = file →
    (file, delivery.snapshot.revision) ∈ parses
  /-- They answer the same pulls with the same outcomes. -/
  same : reports'.map (fun delivery => (delivery.pull, delivery.snapshot)) =
    (reports.filter fun delivery => delivery.pull.id = file).map fun delivery =>
      (delivery.pull.rename file parses, delivery.snapshot.rename (rank file parses))

namespace Delivery.Mirrors

variable {file : Identity} {parses : List (Identity × Nat)} {whole own : Dialogue α}
  (mirrors : Mirrors file parses whole.reports own.reports) {pull : Pull}

include mirrors

/-- A pull about the file is answered in both. -/
theorem deliver (about : pull.id = file) {found : List (Snapshot α)}
    (parsed : ∀ snapshot ∈ found, (file, snapshot.revision) ∈ parses) :
    Mirrors file parses (whole.deliver pull found)
      (own.deliver (pull.rename file parses) (found.map (Snapshot.rename (rank file parses)))) := by
  refine ⟨fun delivery member mine => ?_, ?_⟩
  · rcases List.mem_append.mp member with member | member
    · exact mirrors.stored delivery member mine
    · obtain ⟨snapshot, among, rfl⟩ := List.mem_map.mp member
      exact parsed snapshot among
  · have all : ((found.map fun snapshot => (⟨pull, snapshot, whole.trail⟩ : Delivery α)).filter
        fun delivery => delivery.pull.id = file) =
        found.map fun snapshot => ⟨pull, snapshot, whole.trail⟩ := by
      refine List.filter_eq_self.mpr fun delivery member => ?_
      obtain ⟨snapshot, -, rfl⟩ := List.mem_map.mp member
      exact decide_eq_true about
    rw [Dialogue.deliver, Dialogue.deliver, List.map_append, List.filter_append, List.map_append,
      mirrors.same, all, List.map_map, List.map_map, List.map_map]
    rfl

/-- Nothing is answered in both. -/
theorem deliver_none {pull' : Pull} :
    Mirrors file parses (whole.deliver pull []) (own.deliver pull' []) := by
  rw [Dialogue.deliver, Dialogue.deliver, List.map_nil, List.map_nil, List.append_nil,
    List.append_nil]
  exact mirrors

/-- A pull about another file is answered in the whole. -/
theorem deliver_stray (other : pull.id ≠ file) (found : List (Snapshot α)) :
    Mirrors file parses (whole.deliver pull found) own.reports := by
  have none : ((found.map fun snapshot => (⟨pull, snapshot, whole.trail⟩ : Delivery α)).filter
      fun delivery => delivery.pull.id = file) = [] := by
    refine List.filter_eq_nil_iff.mpr fun delivery member => ?_
    obtain ⟨snapshot, -, rfl⟩ := List.mem_map.mp member
    simpa using other
  refine ⟨fun delivery member mine => ?_, ?_⟩
  · rcases List.mem_append.mp member with member | member
    · exact mirrors.stored delivery member mine
    · obtain ⟨snapshot, -, rfl⟩ := List.mem_map.mp member
      exact absurd mine other
  · rw [Dialogue.deliver, List.filter_append, none, List.append_nil, mirrors.same]

end Delivery.Mirrors

/-! ## Queries that go on -/

namespace Engine

variable {engine : Engine α} {id : Identity} {query : Query} {snapshot : Snapshot α}
  {handle : Handle}

/-- A query that finds an outcome is answered with it. -/
theorem consult_ready (looked : (engine.cache.lookup id).2 = .ok (.ready snapshot)) :
    engine.consult id = (engine.withCache (engine.cache.lookup id).1, .done (.ok snapshot)) := by
  unfold consult
  generalize engine.cache.lookup id = result at looked ⊢
  obtain ⟨cache, answer⟩ := result
  subst looked
  rfl

/-- A query that finds a parse on its way waits for it. -/
theorem consult_inFlight (looked : (engine.cache.lookup id).2 = .ok (.inFlight handle)) :
    engine.consult id = (engine.withCache (engine.cache.lookup id).1, .waits handle) := by
  unfold consult
  generalize engine.cache.lookup id = result at looked ⊢
  obtain ⟨cache, answer⟩ := result
  subst looked
  rfl

/-- What a query that goes on can make of an engine. -/
inductive Resumes (engine : Engine α) (query : Query) : Engine α → Prop where
  /-- The parse was given up, and the query is told so. -/
  | told (progress : engine.cache.progress query.handle = .abandoned) :
      Resumes engine query
        (engine.answer query.number (.error (.taskAbandoned query.handle.id.text)))
  /-- It has looked its file up and is answered. -/
  | answered {between : Engine α} {result : Except Error (Snapshot α)}
      (progress : engine.cache.progress query.handle = .finished)
      (consulted : engine.consult query.handle.id = (between, .done result)) :
      Resumes engine query (between.answer query.number result)
  /-- It has looked its file up and waits for another parse. -/
  | waits {between : Engine α} {handle : Handle}
      (progress : engine.cache.progress query.handle = .finished)
      (consulted : engine.consult query.handle.id = (between, .waits handle)) :
      Resumes engine query { between with
        queries := between.queries.map fun other =>
          if other.number = query.number then { other with handle := handle } else other }

/-- A query goes on in one of these ways. -/
theorem resumes_iff {next : Engine α} :
    engine.resume query = some next ↔ engine.Resumes query next := by
  constructor
  · intro resumed
    unfold resume at resumed
    split at resumed
    · cases resumed
    · cases resumed
      exact .told ‹_›
    · split at resumed
      · cases resumed
        exact .answered ‹_› ‹_›
      · cases resumed
        exact .waits ‹_› ‹_›
  · intro resumed
    cases resumed with
    | told progress => simp only [resume, progress]
    | answered progress consulted => simp only [resume, progress, consulted]
    | waits progress consulted => simp only [resume, progress, consulted]

/-- A query that is answered brings what it is answered with. -/
theorem answered_answer {between : Engine α} (same : between.answers = engine.answers)
    (number : Nat) (result : Except Error (Snapshot α)) :
    engine.answered (between.answer number result) = result.toOption.toList := by
  -- What a query brings are the answers that were not there before.
  have added : (between.answer number result).answers = engine.answers ++ [(number, result)] := by
    rw [answer, same]
  rw [answered, added, List.drop_left]
  cases result <;> rfl

/-- A query that waits again brings nothing. -/
theorem answered_waits {between : Engine α} (same : between.answers = engine.answers) :
    engine.answered between = [] := by
  rw [answered, same, List.drop_length]
  rfl

end Engine

/-! ## Calls about documents -/

namespace DocumentCall

variable {env : Environment α} {session session' : Session α} {file id : Identity}
  {parses : List (Identity × Nat)} {call : DocumentCall}

/-- What becomes of a session by a call, where what is remembered is so on the disk. -/
theorem fst_apply
    (found : (session.identity env.files call.uri).2 = Identity.ofUri env.files call.uri) :
    (call.apply env session).1 =
      if call.isForeign env then session
      else match Identity.ofUri env.files call.uri with
        | .ok id => (call.serve env (session.identity env.files call.uri).1 id).1
        | .error _ => (session.identity env.files call.uri).1 := by
  rw [apply_eq, apply_ite Prod.fst, Session.withIdentity, ← found]
  generalize session.identity env.files call.uri = result
  obtain ⟨known, answer⟩ := result
  cases answer <;> rfl

/-- Only closing a document makes a session forget a file. -/
theorem identities_of_serve (unclosed : ∀ uri, call ≠ .closed uri) :
    (call.serve env session id).1.identities = session.identities := by
  cases call with
  | opened => rfl
  | changed uri text =>
    unfold serve
    split_ifs <;> rfl
  | saved uri text =>
    unfold serve
    split_ifs
    · cases text <;> rfl
    · rfl
  | closed uri => exact absurd rfl (unclosed uri)

/-- A call about the file is served alike where caches are alike. -/
theorem mirrors_serve (mirrors : session.cache.Mirrors file parses session'.cache)
    (rising : parses.Pairwise fun earlier later => earlier.2 < later.2)
    (accepting : session.cache.accepting = true)
    (known : ∀ parse ∈ (call.serve env session file).1.cache.started, parse ∈ parses) :
    (call.serve env session file).1.cache.Mirrors file parses
      (call.serve env session' file).1.cache := by
  have sameOpen : session'.cache.isOpen file = session.cache.isOpen file := by
    rw [isOpen, isOpen, Table.contains, Table.contains, mirrors.document]
  cases call with
  | opened => exact mirrors.updateDocument rising accepting known
  | changed uri text =>
    unfold serve at known ⊢
    rw [sameOpen]
    split_ifs at known ⊢
    · exact mirrors.updateDocument rising accepting known
    · exact mirrors
  | saved uri text =>
    unfold serve at known ⊢
    rw [sameOpen]
    split_ifs at known ⊢
    · cases text with
      | some text => exact mirrors.updateDocument rising accepting known
      | none => exact mirrors.requestParse rising accepting known
    · exact mirrors
  | closed => exact mirrors.closeDocument env.options.evictOnClose

/-- A call about another file leaves the file as it is. -/
theorem apart_serve (other : id ≠ file) :
    Apart file session.cache (call.serve env session id).1.cache := by
  cases call with
  | opened => exact .updateDocument other _
  | changed uri text =>
    unfold serve
    split_ifs
    · exact .updateDocument other _
    · exact .refl file _
  | saved uri text =>
    unfold serve
    split_ifs
    · cases text with
      | some text => exact .updateDocument other _
      | none => exact .requestParse other
    · exact .refl file _
  | closed => exact .closeDocument other _

end DocumentCall

namespace Session.Agrees

variable {env : Environment α} {file id id' : Identity} {files : FileSystem}
  {whole own : Session α} (agrees : Agrees file files whole own) (call : DocumentCall)

include agrees

/-- A call is served in both. -/
theorem serve :
    Agrees file files (call.serve env whole id).1 (call.serve env own id').1 := by
  cases call with
  -- Whoever closes a document makes the session forget its URI.
  | closed uri => exact agrees.forget uri
  | opened | changed | saved =>
    exact agrees.congr (DocumentCall.identities_of_serve nofun)
      (DocumentCall.identities_of_serve nofun)

/-- A call about another file is served in the whole. -/
theorem serve_stray (named : Identity.ofUri files call.uri = .ok id) (other : id ≠ file) :
    Agrees file files (call.serve env whole id).1 own := by
  cases call with
  | closed uri => exact agrees.forget_stray named other
  | opened | changed | saved => exact agrees.congr (DocumentCall.identities_of_serve nofun) rfl

end Session.Agrees

namespace Session

variable {env : Environment α} {file : Identity} {parses : List (Identity × Nat)}
  {whole own : Session α} {call : DocumentCall} (agrees : Agrees file env.files whole own)
  (alike : whole.cache.Mirrors file parses own.cache)
  (rising : parses.Pairwise fun earlier later => earlier.2 < later.2)
  (known : ∀ parse ∈ (call.apply env whole).1.cache.started, parse ∈ parses)

include agrees alike rising known

/-- A call that is not about another file does the same to sessions that are alike. -/
theorem apply_alike (accepting : whole.cache.accepting = true)
    (about : ∀ id, Identity.ofUri env.files call.uri = .ok id → id = file) :
    (call.apply env whole).1.cache.Mirrors file parses (call.apply env own).1.cache ∧
      Agrees file env.files (call.apply env whole).1 (call.apply env own).1 := by
  obtain ⟨recalled, found, found'⟩ := agrees.identity about
  have still : (whole.identity env.files call.uri).1.cache.Mirrors file parses
      (own.identity env.files call.uri).1.cache := by
    rw [cache_of_identity, cache_of_identity]
    exact alike
  rw [DocumentCall.fst_apply found] at known
  rw [DocumentCall.fst_apply found, DocumentCall.fst_apply found']
  split_ifs at known ⊢
  · exact ⟨alike, agrees⟩
  · cases named : Identity.ofUri env.files call.uri with
    | ok id =>
      rw [named] at known
      cases about id named
      refine ⟨DocumentCall.mirrors_serve still rising ?_ known, recalled.serve call⟩
      rw [cache_of_identity, accepting]
    | error cause => exact ⟨still, recalled⟩

/-- A call about another file does nothing that matters for the file. -/
theorem apply_stray {id : Identity} (named : Identity.ofUri env.files call.uri = .ok id)
    (other : id ≠ file) :
    (call.apply env whole).1.cache.Mirrors file parses own.cache ∧
      Agrees file env.files (call.apply env whole).1 own := by
  have found := (identity_of_recalled (agrees.recalled call.uri)).1
  have recalled := agrees.identity_stray named other
  rw [DocumentCall.fst_apply found] at known ⊢
  split_ifs at known ⊢
  · exact ⟨alike, agrees⟩
  · rw [named] at known ⊢
    refine ⟨?_, recalled.serve_stray call named other⟩
    have apart : Apart file whole.cache
        (call.serve env (whole.identity env.files call.uri).1 id).1.cache := by
      have served : Apart file (whole.identity env.files call.uri).1.cache
          (call.serve env (whole.identity env.files call.uri).1 id).1.cache :=
        DocumentCall.apart_serve other
      rwa [cache_of_identity] at served
    exact alike.apart rising apart known

end Session

end DiagnosticServer
