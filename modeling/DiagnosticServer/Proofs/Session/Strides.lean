import DiagnosticServer.Proofs.Cache.Isolation
import DiagnosticServer.Proofs.Session.Calls
import DiagnosticServer.Proofs.Session.Reports

/-!
# A dialogue about one file

A dialogue goes on by strides: small steps, or whole calls of a client about a document. Each stride
is about one file, if it is about any: `Stride.file?`. `Dialogue.restrict` leaves of a dialogue what
is not about other files. Nothing else goes by the names that it had: tasks and reports are named by
revisions, which other files have a share in, and queries by numbers, which they have a share in
too.
-/

namespace DiagnosticServer

variable {α : Type}

open Cache

/-! ## Strides -/

/-- One stride of a dialogue. -/
inductive Stride where
  /-- A small step is taken. -/
  | small (happening : Happening)
  /-- A client makes a call about a document, and nothing comes in between until it is over. -/
  | call (call : DocumentCall)

/-- What a stride makes of a dialogue, if it can be taken. The steps that a call is made of are not
put on record. -/
def Dialogue.stride (env : Environment α) (dialogue : Dialogue α) : Stride → Option (Dialogue α)
  | .small happening => dialogue.step env happening
  | .call call =>
    let session := (call.apply (env.on dialogue.files) dialogue.engine.session).1
    some (dialogue.withSession session dialogue.trail)

/-- The file that a stride is about, if it is about one. -/
def Stride.file? (dialogue : Dialogue α) : Stride → Option Identity
  | small (.act action) => action.file? dialogue.world
  | small (.name uri) | small (.forget uri) | small (.pull uri _) =>
    (Identity.ofUri dialogue.files uri).toOption
  | small (.ask pull) => some pull.id
  | small (.resume number) => dialogue.asked[number]?.map Pull.id
  | call made => (Identity.ofUri dialogue.files made.uri).toOption

/-- A file that a stride is about because of a URI is the one that the URI names. -/
theorem Identity.ofUri_of_toOption {files : FileSystem} {uri : Uri} {id : Identity}
    (names : (ofUri files uri).toOption = some id) : ofUri files uri = .ok id := by
  cases found : ofUri files uri with
  | ok other =>
    rw [found] at names
    cases names
    rfl
  | error cause =>
    rw [found] at names
    cases names

/-! ## What comes after what -/

/-- Whether a world may come after another one. -/
structure World.Precedes (world next : World α) : Prop where
  /-- What was started stays on record. -/
  started : world.cache.started <+: next.cache.started
  /-- No revision is zero if none was. -/
  positive : (∀ parse ∈ world.cache.started, 0 < parse.2) →
    ∀ parse ∈ next.cache.started, 0 < parse.2
  /-- Parses are not started again. -/
  accepting : next.cache.accepting = true → world.cache.accepting = true
  /-- The cache and the calls still fit together. -/
  coherent : world.Coherent → next.Coherent

namespace World.Precedes

variable {env : Environment α} {world between next : World α}

/-- A world may come after itself. -/
theorem refl (world : World α) : Precedes world world := ⟨List.prefix_refl _, id, id, id⟩

/-- What comes later comes after what was before. -/
theorem trans (first : Precedes world between) (second : Precedes between next) :
    Precedes world next :=
  ⟨first.started.trans second.started, second.positive ∘ first.positive,
    first.accepting ∘ second.accepting, second.coherent ∘ first.coherent⟩

/-- A step leads to a world that comes after. -/
theorem of_step {action : Action} (taken : world.step env action = some next) :
    Precedes world next := by
  refine ⟨started_prefix_of_step taken, fun positive parse member => ?_, accepting_of_step taken,
    fun coherent => coherent.step taken⟩
  rcases started_of_step taken with same | ⟨id, grown⟩
  · rw [same] at member
    exact positive parse member
  · rw [grown] at member
    rcases List.mem_append.mp member with old | new
    · exact positive parse old
    · rw [List.mem_singleton.mp new]
      exact Nat.succ_pos _

/-- So do several steps. -/
theorem of_follow {actions : List Action} {trail after : List (World α × Action)}
    (followed : world.follow env trail actions = some (next, after)) : Precedes world next := by
  induction actions generalizing world trail with
  | nil =>
    cases followed
    exact refl next
  | cons action rest ih =>
    rw [follow] at followed
    split at followed
    · rename_i between taken
      exact (of_step taken).trans (ih followed)
    · cases followed

/-- So does a call once its file is found. -/
theorem of_serve {session : Session α} (same : session.cache = world.cache) (id : Identity)
    (call : DocumentCall) :
    Precedes world (world.withCache (call.serve env session id).1.cache) := by
  have updated (document : Document) :
      Precedes world (world.withCache (session.update id document).1.cache) := by
    obtain ⟨_, _, followed⟩ := follow_update env world [] id document
    rw [← same] at followed
    exact of_follow followed
  have idle : Precedes world (world.withCache session.cache) := by
    rw [same]
    exact refl world
  cases call with
  | opened uri _ text => exact updated ⟨uri, text⟩
  | changed uri text =>
    unfold DocumentCall.serve
    split_ifs
    · exact updated ⟨uri, text⟩
    · exact idle
  | saved uri text =>
    unfold DocumentCall.serve
    split_ifs
    · cases text with
      | some text => exact updated ⟨uri, text⟩
      | none =>
        have asked : world.step env (.request id) =
            some (world.withCache (session.cache.requestParse id).1) := by
          rw [same]
          rfl
        exact of_step asked
    · exact idle
  | closed uri =>
    obtain ⟨_, _, followed⟩ := follow_close env world [] id
    rw [← same] at followed
    exact of_follow followed

end World.Precedes

namespace Dialogue

variable {env : Environment α} {dialogue next : Dialogue α}

/-- A stride leads to a world that comes after. -/
theorem precedes_of_stride {stride : Stride} (taken : dialogue.stride env stride = some next) :
    dialogue.world.Precedes next.world := by
  have looked {engine : Engine α} {id : Identity} (same : engine.session =
      { dialogue.engine.session with cache := (dialogue.engine.cache.lookup id).1 }) :
      dialogue.world.Precedes ⟨engine.cache, dialogue.files, dialogue.calls⟩ := by
    have stepped : dialogue.world.step env (.look id) =
        some ⟨engine.cache, dialogue.files, dialogue.calls⟩ := by
      rw [Engine.cache, same]
      rfl
    exact .of_step stepped
  have idle {session : Session α} (same : session.cache = dialogue.engine.cache) :
      dialogue.world.Precedes ⟨session.cache, dialogue.files, dialogue.calls⟩ := by
    rw [same]
    exact .refl dialogue.world
  cases stride with
  | small happening =>
    cases proceeds_of_step taken with
    | stepped moved => exact .of_step moved
    | named same => exact idle same
    | asked _ asks => exact looked (Engine.ask_spec asks).1
    | resumed waits _ goesOn =>
      rcases (Engine.resume_spec waits goesOn).1 with ⟨-, same⟩ | ⟨-, same⟩
      · exact idle (congrArg Session.cache same)
      · exact looked same
  | call call =>
    cases taken
    rcases call.apply_cases (env.on dialogue.files) dialogue.engine.session with
      ⟨-, passed⟩ | ⟨-, ⟨cause, -, failed⟩ | ⟨known, id, identified, served⟩⟩
    · rw [passed]
      exact idle rfl
    · rw [failed]
      exact idle rfl
    · rw [served]
      exact .of_serve (Session.identity_spec identified).1 id call

/-- Strides lead to a world that comes after. -/
theorem precedes_of_strides {strides : List Stride}
    (played : strides.foldlM (Dialogue.stride env) dialogue = some next) :
    dialogue.world.Precedes next.world := by
  induction strides generalizing dialogue with
  | nil =>
    cases played
    exact .refl _
  | cons stride rest ih =>
    rw [List.foldlM_cons] at played
    obtain ⟨between, taken, played⟩ := Option.bind_eq_some_iff.mp played
    exact (precedes_of_stride taken).trans (ih played)

end Dialogue

/-! ## Other names -/

/-- The name of a report on the file where no other files are parsed; nothing, if no parse of the
file has that name. -/
def Report.rename? (file : Identity) (parses : List (Identity × Nat)) (name : String) :
    Option String :=
  (parses.find? fun parse => parse.1 = file ∧ nameOf parse.2 = name).map fun parse =>
    nameOf (rank file parses parse.2)

/-- A pull with the other name of the report that the client has. -/
def Pull.rename (file : Identity) (parses : List (Identity × Nat)) (pull : Pull) : Pull :=
  { pull with previous := pull.previous.bind (Report.rename? file parses) }

/-- The number of a query if only those about the file are counted. -/
def place (file : Identity) (asked : List Pull) (number : Nat) : Nat :=
  (asked.take number).countP fun pull => pull.id = file

/-- A query with other numbers. -/
def Query.rename (file : Identity) (parses : List (Identity × Nat)) (asked : List Pull)
    (query : Query) : Query :=
  ⟨place file asked query.number, query.handle.rename (rank file parses)⟩

/-- A small step with other names. -/
def Happening.rename (file : Identity) (parses : List (Identity × Nat)) (asked : List Pull) :
    Happening → Happening
  | act action => .act (action.rename (rank file parses))
  | name uri => .name uri
  | forget uri => .forget uri
  | pull uri previous => .pull uri (previous.bind (Report.rename? file parses))
  | ask begun => .ask (begun.rename file parses)
  | resume number => .resume (place file asked number)

/-- A stride with other names. -/
def Stride.rename (file : Identity) (parses : List (Identity × Nat)) (asked : List Pull) :
    Stride → Stride
  | small happening => .small (happening.rename file parses asked)
  | call made => .call made

/-- What is left of strides from a dialogue on if those about other files are left out. -/
def Dialogue.restrict (env : Environment α) (file : Identity) (parses : List (Identity × Nat)) :
    Dialogue α → List Stride → List Stride
  | _, [] => []
  | dialogue, stride :: rest =>
    match dialogue.stride env stride with
    | none => []
    | some next =>
      let further := next.restrict env file parses rest
      if (stride.file? dialogue).all (· = file) then
        stride.rename file parses dialogue.asked :: further
      else further

/-- A client that has the report on an outcome has it under the other name, and the other way
round. -/
theorem Report.rename?_eq_iff {file : Identity} {parses : List (Identity × Nat)} {revision : Nat}
    (parsed : (file, revision) ∈ parses) (previous : Option String) :
    previous.bind (Report.rename? file parses) = some (nameOf (rank file parses revision)) ↔
      previous = some (nameOf revision) := by
  constructor
  · intro renamed
    obtain ⟨name, rfl, found⟩ := Option.bind_eq_some_iff.mp renamed
    obtain ⟨parse, among, same⟩ := Option.map_eq_some_iff.mp found
    obtain ⟨id, number⟩ := parse
    have test := List.find?_some among
    have member := List.mem_of_find?_eq_some among
    obtain ⟨rfl, named⟩ : id = file ∧ nameOf number = name := by simpa using test
    rw [← named, eq_of_rank member parsed (eq_of_nameOf same)]
  · rintro rfl
    have present : (parses.find? fun parse =>
        decide (parse.1 = file ∧ nameOf parse.2 = nameOf revision)).isSome :=
      List.find?_isSome.mpr ⟨(file, revision), parsed, decide_eq_true ⟨rfl, rfl⟩⟩
    -- Another parse may be found, but it has the same revision, since it has the same name.
    obtain ⟨parse, among⟩ := Option.isSome_iff_exists.mp present
    obtain ⟨-, same⟩ : parse.1 = file ∧ nameOf parse.2 = nameOf revision := by
      simpa using List.find?_some among
    rw [Option.bind_some, rename?, among, Option.map_some, eq_of_nameOf same]

section

variable {file : Identity} {asked : List Pull} {number other : Nat} {pull : Pull}

/-- A pull stands behind as many others as its number says. -/
theorem exists_split (found : asked[number]? = some pull) :
    ∃ before after, asked = before ++ pull :: after ∧ before.length = number := by
  obtain ⟨within, rfl⟩ := List.getElem?_eq_some_iff.mp found
  refine ⟨asked.take number, asked.drop (number + 1), ?_,
    List.length_take_of_le (Nat.le_of_lt within)⟩
  rw [← List.drop_eq_getElem_cons within, List.take_append_drop]

/-- A pull about the file has its place among those about the file. -/
theorem getElem?_place (found : asked[number]? = some pull) (about : pull.id = file) :
    (asked.filter fun pull => pull.id = file)[place file asked number]? = some pull := by
  obtain ⟨before, after, rfl, rfl⟩ := exists_split found
  rw [place, List.take_left, List.filter_append, List.filter_cons_of_pos (by simpa using about),
    List.countP_eq_length_filter, List.getElem?_append_right (Nat.le_refl _), Nat.sub_self]
  rfl

/-- Places come in the order of numbers. -/
theorem place_lt_place (found : asked[number]? = some pull) (about : pull.id = file)
    (later : number < other) : place file asked number < place file asked other := by
  obtain ⟨before, after, rfl, rfl⟩ := exists_split found
  obtain ⟨further, rfl⟩ : ∃ further, other = before.length + (further + 1) :=
    ⟨other - before.length - 1, by omega⟩
  -- The pull itself is counted for the other number.
  rw [place, place, List.take_left, List.take_length_add_append, List.take_succ_cons,
    List.countP_append, List.countP_cons_of_pos (by simpa using about)]
  omega

/-- Pulls about the file have places of their own. -/
theorem eq_of_place {pull' : Pull} (found : asked[number]? = some pull) (about : pull.id = file)
    (found' : asked[other]? = some pull') (about' : pull'.id = file)
    (same : place file asked number = place file asked other) : number = other := by
  have rises : StrictMonoOn (place file asked)
      {number | ∃ pull, asked[number]? = some pull ∧ pull.id = file} :=
    fun _ ⟨_, found, about⟩ _ _ later => place_lt_place found about later
  exact rises.injOn ⟨pull, found, about⟩ ⟨pull', found', about'⟩ same

/-- Later pulls do not change the places of earlier ones. -/
theorem place_append (within : number ≤ asked.length) (more : List Pull) :
    place file (asked ++ more) number = place file asked number := by
  rw [place, place, List.take_append_of_le_length within]

end

end DiagnosticServer
