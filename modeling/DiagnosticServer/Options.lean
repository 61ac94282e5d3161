import DiagnosticServer.Json.Basic

/-!
# Options of a client

A client may send options when it starts: an object with named fields, or an array with the fields
in order. Fields may be left out; an unknown field is passed over. If any field has the wrong type,
all options are what they are without being sent.
-/

namespace DiagnosticServer

/-- How the server serves a client. -/
structure Options where
  /-- The languages whose documents are looked at. -/
  languageIds : List String := ["java", "text/java", "jml"]
  /-- What is given as the source of each diagnostic. -/
  diagnosticSource : String := "jmlparser"
  /-- How many parses may run at once. None or zero is as many as there are processors. -/
  maxParallelParses : Option Nat := none
  /-- Whether closing a document drops its outcome. -/
  evictOnClose : Bool := true
  /-- Whether each success is reported to the client's log. -/
  logParses : Bool := true
deriving DecidableEq, Repr

namespace Options

/-- The field that a value gives, or what it is without one. A value of the wrong type gives none.
-/
def read {α : Type} (reader : Json → Option α) (fallback : α) : Option Json → Option α
  | none => some fallback
  | some value => reader value

/-- The options with the given fields, if each has its type. -/
def ofFields? (languages source parses evict log : Option Json) : Option Options := do
  let standard : Options := {}
  let languageIds ← read Json.texts? standard.languageIds languages
  let diagnosticSource ← read Json.text? standard.diagnosticSource source
  let maxParallelParses ← read (Json.nullable Json.word?) standard.maxParallelParses parses
  let evictOnClose ← read Json.bool? standard.evictOnClose evict
  let logParses ← read Json.bool? standard.logParses log
  return ⟨languageIds, diagnosticSource, maxParallelParses, evictOnClose, logParses⟩

/-- The options that a value spells. -/
def ofJson? : Json → Option Options
  | .object fields =>
    ofFields? (fields.lookup "languageIds") (fields.lookup "diagnosticSource")
      (fields.lookup "maxParallelParses") (fields.lookup "evictOnClose") (fields.lookup "logParses")
  | .array items =>
    if items.length > 5 then none
    else ofFields? items[0]? items[1]? items[2]? items[3]? items[4]?
  | _ => none

/-- The options of a client, whatever it sent. -/
def ofClient (sent : Option Json) : Options := (sent.bind ofJson?).getD {}

/-- Whether documents of a language are looked at. -/
def accepts (options : Options) (language : String) : Bool := options.languageIds.contains language

/-- How many parses may run at once on a machine with that many processors. -/
def workers (options : Options) (processors : Nat) : Nat :=
  match options.maxParallelParses with
  | some (count + 1) => count + 1
  | _ => processors

end Options

end DiagnosticServer
