import DiagnosticServer.Script
import DiagnosticServer.Server.Service

/-!
# Options and the start of a session

Whatever a client sends as its options, the server makes something of it: a value spells options if
and only if it is a record in which every field that is given has its type
(`Options.exists_ofJson?_iff`), and everything else is as if nothing had been sent
(`Options.ofClient_of_not_isRecord`). The number of workers that results is never zero. From above
it is bounded by the numbers that can be read, of which some are larger than the number of workers
that can be counted. So there is one kind of options with which no session can be made, and which
takes the server down at its start: a record that asks for more workers than can be counted
(`session_starts_iff_countable`).
-/

namespace DiagnosticServer

namespace Json

variable {value : Json}

/-- Nothing but a text is read as one. -/
theorem text?_eq_some_iff {text : String} : value.text? = some text ↔ value = .string text := by
  cases value <;> simp [text?]

/-- Nothing but a truth value is read as one. -/
theorem bool?_eq_some_iff {flag : Bool} : value.bool? = some flag ↔ value = .bool flag := by
  cases value <;> simp [bool?]

/-- Values are read as texts if they are those texts in order. -/
theorem mapM_text?_eq_some_iff {items : List Json} {texts : List String} :
    items.mapM text? = some texts ↔ items = texts.map .string := by
  induction items generalizing texts with
  | nil => cases texts <;> simp
  | cons first rest ih =>
    rw [List.mapM_cons]
    cases texts <;> simp [Option.bind_eq_some_iff, text?_eq_some_iff, ih]

/-- Nothing but an array of texts is read as a list of texts. -/
theorem texts?_eq_some_iff {texts : List String} :
    value.texts? = some texts ↔ value = .array (texts.map .string) := by
  cases value <;> simp [texts?, mapM_text?_eq_some_iff]

/-- Nothing but an integer from zero to below 2^64 is read as a natural number. -/
theorem word?_eq_some_iff {count : Nat} :
    value.word? = some count ↔ value = .integer count ∧ count < Nat.pow 2 64 := by
  constructor
  · intro found
    unfold word? at found
    split at found
    · split at found
      · cases found
        exact ⟨rfl, by assumption⟩
      · cases found
    · cases found
  · rintro ⟨rfl, small⟩
    exact if_pos small

/-- Nothing but null and what is read as a natural number is read as one that may be missing. -/
theorem nullable_word?_eq_some_iff {count : Option Nat} : nullable word? value = some count ↔
    value = .null ∧ count = none ∨ ∃ n, value.word? = some n ∧ count = some n := by
  unfold nullable
  split
  · simp [word?, eq_comm]
  · rename_i present
    have other : value ≠ .null := present
    rw [Option.map_eq_some_iff]
    simp [other, eq_comm]

/-- What can be read as a natural number that may be missing is null or such a number. -/
theorem exists_nullable_word?_iff : (∃ count, nullable word? value = some count) ↔
    value = .null ∨ ∃ n : Nat, value = .integer n ∧ n < Nat.pow 2 64 := by
  simp only [nullable_word?_eq_some_iff, word?_eq_some_iff]
  constructor
  · rintro ⟨count, ⟨null, -⟩ | ⟨n, word, -⟩⟩
    · exact .inl null
    · exact .inr ⟨n, word⟩
  · rintro (null | ⟨n, word⟩)
    · exact ⟨none, .inl ⟨null, rfl⟩⟩
    · exact ⟨some n, .inr ⟨n, word, rfl⟩⟩

end Json

namespace Options

variable {α : Type} {value : Json} {options : Options}

/-! ## Reading options -/

/-- What a value gives for the field of that place and name. -/
def given? (value : Json) (place : Nat) (name : String) : Option Json :=
  match value with
  | .object fields => fields.lookup name
  | .array items => items[place]?
  | _ => none

/-- Whether a value is a record of options: an object, or an array with no more values than there
are fields, in which every field that is given has its type. -/
structure IsRecord (value : Json) : Prop where
  /-- The value has fields. -/
  shape : (∃ fields, value = .object fields) ∨ ∃ items, value = .array items ∧ items.length ≤ 5
  /-- The languages are texts. -/
  languageIds : ∀ field, given? value 0 "languageIds" = some field →
    ∃ texts : List String, field = .array (texts.map .string)
  /-- The source is a text. -/
  diagnosticSource : ∀ field, given? value 1 "diagnosticSource" = some field →
    ∃ text, field = .string text
  /-- The number of parses is null or an integer from zero to below 2^64. -/
  maxParallelParses : ∀ field, given? value 2 "maxParallelParses" = some field →
    field = .null ∨ ∃ n : Nat, field = .integer n ∧ n < Nat.pow 2 64
  /-- The fourth field is a truth value. -/
  evictOnClose : ∀ field, given? value 3 "evictOnClose" = some field → ∃ flag, field = .bool flag
  /-- The fifth field is a truth value. -/
  logParses : ∀ field, given? value 4 "logParses" = some field → ∃ flag, field = .bool flag

/-- A field is read if and only if it is left out or has its type. -/
theorem exists_read_iff {reader : Json → Option α} {typed : Json → Prop} (fallback : α)
    {given : Option Json} (law : ∀ value, (∃ field, reader value = some field) ↔ typed value) :
    (∃ field, read reader fallback given = some field) ↔
      ∀ value, given = some value → typed value := by
  cases given <;> simp [read, law]

/-- Options are read if each of their fields is. -/
theorem ofFields?_eq_some_iff {languages source parses evict log : Option Json} :
    ofFields? languages source parses evict log = some options ↔
      read Json.texts? (languageIds {}) languages = some options.languageIds ∧
      read Json.text? (diagnosticSource {}) source = some options.diagnosticSource ∧
      read (Json.nullable Json.word?) (maxParallelParses {}) parses =
        some options.maxParallelParses ∧
      read Json.bool? (evictOnClose {}) evict = some options.evictOnClose ∧
      read Json.bool? (logParses {}) log = some options.logParses := by
  obtain ⟨languageIds, diagnosticSource, maxParallelParses, evictOnClose, logParses⟩ := options
  simp only [ofFields?, Option.bind_eq_bind, Option.bind_eq_some_iff, Option.pure_def,
    Option.some.injEq, Options.mk.injEq]
  constructor
  · rintro ⟨_, one, _, two, _, three, _, four, _, five, rfl, rfl, rfl, rfl, rfl⟩
    exact ⟨one, two, three, four, five⟩
  · rintro ⟨one, two, three, four, five⟩
    exact ⟨_, one, _, two, _, three, _, four, _, five, rfl, rfl, rfl, rfl, rfl⟩

/-- A value spells options if it has the shape of a record and its fields are read. -/
theorem ofJson?_eq_some_iff : ofJson? value = some options ↔
    ((∃ fields, value = .object fields) ∨ ∃ items, value = .array items ∧ items.length ≤ 5) ∧
    ofFields? (given? value 0 "languageIds") (given? value 1 "diagnosticSource")
      (given? value 2 "maxParallelParses") (given? value 3 "evictOnClose")
      (given? value 4 "logParses") = some options := by
  cases value <;> simp [ofJson?, given?]

/-- A value spells options if and only if it is a record of options. -/
theorem exists_ofJson?_iff : (∃ options, ofJson? value = some options) ↔ IsRecord value := by
  -- A value can be read as a field exactly if it has the type of the field.
  have texts (value : Json) : (∃ texts, value.texts? = some texts) ↔
      ∃ texts : List String, value = .array (texts.map .string) :=
    exists_congr fun _ => Json.texts?_eq_some_iff
  have text (value : Json) : (∃ text, value.text? = some text) ↔ ∃ text, value = .string text :=
    exists_congr fun _ => Json.text?_eq_some_iff
  have count (value : Json) : (∃ count, Json.nullable Json.word? value = some count) ↔
      value = .null ∨ ∃ n : Nat, value = .integer n ∧ n < Nat.pow 2 64 :=
    Json.exists_nullable_word?_iff
  have flag (value : Json) : (∃ flag, value.bool? = some flag) ↔ ∃ flag, value = .bool flag :=
    exists_congr fun _ => Json.bool?_eq_some_iff
  constructor
  · rintro ⟨options, spelled⟩
    obtain ⟨shape, fields⟩ := ofJson?_eq_some_iff.1 spelled
    obtain ⟨languages, source, parses, evict, log⟩ := ofFields?_eq_some_iff.1 fields
    exact ⟨shape, (exists_read_iff _ texts).1 ⟨_, languages⟩,
      (exists_read_iff _ text).1 ⟨_, source⟩, (exists_read_iff _ count).1 ⟨_, parses⟩,
      (exists_read_iff _ flag).1 ⟨_, evict⟩, (exists_read_iff _ flag).1 ⟨_, log⟩⟩
  · intro record
    obtain ⟨_, languages⟩ := (exists_read_iff (languageIds {}) texts).2 record.languageIds
    obtain ⟨_, source⟩ := (exists_read_iff (diagnosticSource {}) text).2 record.diagnosticSource
    obtain ⟨_, parses⟩ := (exists_read_iff (maxParallelParses {}) count).2 record.maxParallelParses
    obtain ⟨_, evict⟩ := (exists_read_iff (evictOnClose {}) flag).2 record.evictOnClose
    obtain ⟨_, log⟩ := (exists_read_iff (logParses {}) flag).2 record.logParses
    exact ⟨⟨_, _, _, _, _⟩, ofJson?_eq_some_iff.2 ⟨record.shape,
      ofFields?_eq_some_iff.2 ⟨languages, source, parses, evict, log⟩⟩⟩

/-- The number of parses that a record asks for is the one in its third field. -/
theorem maxParallelParses_of_ofJson? {count : Nat} (spelled : ofJson? value = some options) :
    options.maxParallelParses = some count ↔
      given? value 2 "maxParallelParses" = some (.integer count) := by
  obtain ⟨-, fields⟩ := ofJson?_eq_some_iff.1 spelled
  obtain ⟨-, -, parses, -, -⟩ := ofFields?_eq_some_iff.1 fields
  cases given : given? value 2 "maxParallelParses" with
  | none =>
    rw [given] at parses
    simp [← Option.some.inj parses]
  | some field =>
    rw [given] at parses
    rcases Json.nullable_word?_eq_some_iff.1 parses with ⟨rfl, missing⟩ | ⟨n, word, present⟩
    · simp [missing]
    · obtain ⟨rfl, -⟩ := Json.word?_eq_some_iff.1 word
      simp only [present, Option.some.injEq, Json.integer.injEq, Int.natCast_inj]

/-- What is no record of options is as if nothing had been sent. -/
theorem ofClient_of_not_isRecord (other : ¬ IsRecord value) : ofClient (some value) = {} := by
  have unread : ofJson? value = none :=
    Option.eq_none_iff_forall_ne_some.2 fun options spelled =>
      other (exists_ofJson?_iff.1 ⟨options, spelled⟩)
  simp [ofClient, unread]

/-- A client asks for a number of parses if and only if it sends a record with that number. -/
theorem maxParallelParses_ofClient {sent : Option Json} {count : Nat} :
    (ofClient sent).maxParallelParses = some count ↔ ∃ value, sent = some value ∧
      IsRecord value ∧ given? value 2 "maxParallelParses" = some (.integer count) := by
  cases sent with
  | none => simp [ofClient]
  | some value =>
    by_cases record : IsRecord value
    · obtain ⟨options, spelled⟩ := exists_ofJson?_iff.2 record
      have same : ofClient (some value) = options := by simp [ofClient, spelled]
      rw [same, maxParallelParses_of_ofJson? spelled]
      simp [record]
    · simp [ofClient_of_not_isRecord record, record]

/-! ## Workers -/

/-- Whether a client sends a record of options that asks for more parses at once than workers can be
counted. -/
def Overasks (sent : Option Json) : Prop :=
  ∃ value, ∃ count : Nat, sent = some value ∧ IsRecord value ∧
    given? value 2 "maxParallelParses" = some (.integer count) ∧ Session.workerLimit < count

/-- On a machine with a bounded number of processors the number of workers is bounded so if the
number of parses asked for is. -/
theorem workers_le_iff {processors limit : Nat} (few : processors ≤ limit) :
    options.workers processors ≤ limit ↔
      ∀ count, options.maxParallelParses = some count → count ≤ limit := by
  unfold workers
  split
  · rename_i count asked
    simp [asked]
  · -- None or zero was asked for.
    rename_i free
    refine iff_of_true few fun count asked => ?_
    cases count with
    | zero => exact Nat.zero_le _
    | succ more => exact absurd asked (free more)

/-- Workers can be counted if and only if the client does not ask for too many. -/
theorem workers_ofClient_le_iff {processors : Nat} (few : processors ≤ Session.workerLimit)
    {sent : Option Json} :
    (ofClient sent).workers processors ≤ Session.workerLimit ↔ ¬ Overasks sent := by
  rw [workers_le_iff few]
  constructor
  · rintro bounded ⟨value, count, rfl, record, given, many⟩
    have asked := maxParallelParses_ofClient.2 ⟨value, rfl, record, given⟩
    exact Nat.not_lt.2 (bounded count asked) many
  · intro modest count asked
    obtain ⟨value, same, record, given⟩ := maxParallelParses_ofClient.1 asked
    exact Nat.not_lt.1 fun many => modest ⟨value, count, same, record, given, many⟩

end Options

/-! ## The start of a session -/

variable {α : Type}

/-- A machine with a processor has a worker. -/
theorem Environment.workers_pos {env : Environment α} (processors : 0 < env.processors) :
    0 < env.workers := by
  unfold workers Options.workers
  split
  · exact Nat.succ_pos _
  · exact processors

/-- A session can be made if and only if its workers can be counted. -/
theorem Session.exists_create_iff {env : Environment α} :
    (∃ session, Session.create env = .ok session) ↔ env.workers ≤ Session.workerLimit := by
  unfold Session.create
  split <;> simp [*]

/-- A server starts if and only if a session can be made, whether or not there is one already. -/
theorem Server.exists_start_iff {host : Host α} {server : Server α} {sent : Option Json} :
    (∃ started, server.start host sent = .ok started) ↔ ∃ session,
      Session.create (Server.environment host (Options.ofClient sent)) = .ok session := by
  unfold Server.start Engine.create
  cases made : Session.create (Server.environment host (Options.ofClient sent)) with
  | error cause => simp [made, Except.map, bind, Except.bind]
  | ok session =>
    refine iff_of_true ?_ ⟨session, rfl⟩
    cases server.service <;> exact ⟨_, by simp only [made]; rfl⟩

/-- Let a machine have a processor, and no more processors than workers can be counted. Whatever a
client sends as its options, there is at least one worker. The workers can be counted, a session can
be made, and any server can start, if and only if what is sent is no record that asks for more
workers than can be counted. -/
theorem session_starts_iff_countable (host : Host α) (one : 1 ≤ host.processors)
    (few : host.processors ≤ Session.workerLimit) (sent : Option Json) :
    1 ≤ (Server.environment host (Options.ofClient sent)).workers ∧
    ((Server.environment host (Options.ofClient sent)).workers ≤ Session.workerLimit ↔
      ¬ Options.Overasks sent) ∧
    ((∃ session, Session.create (Server.environment host (Options.ofClient sent)) = .ok session) ↔
      ¬ Options.Overasks sent) ∧
    ∀ server : Server α, (∃ started, server.start host sent = .ok started) ↔
      ¬ Options.Overasks sent := by
  have countable : (Server.environment host (Options.ofClient sent)).workers ≤
      Session.workerLimit ↔ ¬ Options.Overasks sent := Options.workers_ofClient_le_iff few
  have created := Session.exists_create_iff.trans countable
  exact ⟨Environment.workers_pos one, countable, created,
    fun server => Server.exists_start_iff.trans created⟩

/-- A machine with eight processors and nothing on its disk. -/
def octet : Host Script.Document := ⟨.empty [] List.all_nil, Script.parser, 8⟩

/-- Options in an array that ask for as many workers as can be counted, and do not give the last two
fields. -/
def atLimit : Json := .array [.array [.string "jml"], .string "", .integer 2305843009213693951]

/-- A session can be made with as many workers as can be counted. -/
theorem session_starts_at_limit :
    1 ≤ octet.processors ∧ octet.processors ≤ Session.workerLimit ∧
    Options.ofClient (some atLimit) = ⟨["jml"], "", some Session.workerLimit, true, true⟩ ∧
    ∃ session, Session.create (Server.environment octet (Options.ofClient (some atLimit))) =
      .ok session := by
  have one : 1 ≤ octet.processors := by decide
  have few : octet.processors ≤ Session.workerLimit := by decide
  refine ⟨one, few, by decide, (session_starts_iff_countable octet one few _).2.2.1.2 ?_⟩
  rintro ⟨value, count, same, -, given, many⟩
  cases same
  cases given
  exact absurd many (by decide)

/-- Options in an object that ask for one worker more than can be counted. -/
def beyondLimit : Json := .object [("maxParallelParses", .integer 2305843009213693952)]

/-- No session can be made with one worker more than can be counted, and a server goes down when it
is started so. -/
theorem session_refused_beyond_limit :
    1 ≤ octet.processors ∧ octet.processors ≤ Session.workerLimit ∧
    ¬ (Server.environment octet (Options.ofClient (some beyondLimit))).workers ≤
      Session.workerLimit ∧
    Session.create (Server.environment octet (Options.ofClient (some beyondLimit))) =
      .error .tooManyWorkers ∧
    Server.idle.start octet (some beyondLimit) = .error .tooManyWorkers :=
  ⟨by decide, by decide, by decide, rfl, rfl⟩

end DiagnosticServer
