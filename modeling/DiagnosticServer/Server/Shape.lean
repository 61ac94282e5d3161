import DiagnosticServer.Json.Printer
import DiagnosticServer.Uri.Reader

/-!
# Shapes of parameters

What the parameters of a method have to look like. A shape takes a value and gives it back in its
normal form, in which every record is an object with the fields that are there, or it says what is
wrong with the value. A record can also be sent as the array of its fields, as long as nothing else
is spread into it.

If several fields of an object are wrong, the first of them in the order of their names is
complained about, and after that the first that is missing. What is spread into a record is looked
at after its own fields.
-/

namespace DiagnosticServer

/-- Why parameters cannot be read. -/
inductive ParamsFault where
  /-- There are none. -/
  | missing
  /-- There should be none. -/
  | unexpected (params : Json)
  /-- A record lacks a field. -/
  | lacks (field : String)
  /-- What should be a URI is none. -/
  | uri (fault : Uri.Fault)
  /-- A value is not of its kind. -/
  | wrongKind (found : Json) (expected : String)
  /-- An integer is out of bounds. -/
  | outOfBounds (found : Int) (expected : String)
  /-- An object that stands for a word has no field or more than one. -/
  | notOneField
  /-- The array for a record ends before the field with that number. -/
  | tooShort (number : Nat) (record : String) (fields : Nat)
  /-- The array for a record goes on after its fields. -/
  | tooLong (length fields : Nat)
  /-- The array for a record within what is spread into another goes on after its fields. -/
  | tooLongSpread (length fields : Nat)
  /-- A value is none of those that the name stands for. -/
  | unmatched (name : String)
  /-- A text is none of the words it can be. -/
  | unknownWord (word : String) (words : List String)

namespace ParamsFault

/-- So many things of a kind. -/
def counted (count : Nat) (thing : String) : String :=
  s!"{count} {thing}" ++ if count = 1 then "" else "s"

/-- The words that are possible. -/
def choice (words : List String) : String :=
  match words.map fun word => s!"`{word}`" with
  | [only] => only
  | [first, second] => s!"{first} or {second}"
  | many => "one of " ++ ", ".intercalate many

/-- The words for a fault. -/
def message : ParamsFault → String
  | missing => "Missing params field"
  | unexpected params => "Unexpected params: " ++ params.render
  | lacks field => s!"missing field `{field}`"
  | uri fault => fault.message
  | wrongKind found expected => "invalid type: " ++ found.describe ++ ", expected " ++ expected
  | outOfBounds found expected => s!"invalid value: integer `{found}`, expected {expected}"
  | notOneField => "invalid value: map, expected map with a single key"
  | tooShort number record fields =>
    s!"invalid length {number}, expected struct {record} with " ++ counted fields "element"
  | tooLong length _ => s!"invalid length {length}, expected fewer elements in array"
  | tooLongSpread length fields =>
    s!"invalid length {length}, expected " ++ counted fields "element" ++ " in sequence"
  | unmatched name => s!"data did not match any variant of untagged enum {name}"
  | unknownWord word words => s!"unknown variant `{word}`, expected " ++ choice words

/-- The fault as it is in what is spread into a record. -/
def spread : ParamsFault → ParamsFault
  | tooLong length fields => tooLongSpread length fields
  | fault => fault

end ParamsFault

/-- What a value has to look like. -/
abbrev Shape := Json → Except ParamsFault Json

namespace Shape

/-! ## Single values -/

/-- Any value. -/
def anything : Shape := .ok

/-- A text. -/
def text : Shape
  | .string value => .ok (.string value)
  | other => .error (.wrongKind other "a string")

/-- A truth value. -/
def flag : Shape
  | .bool value => .ok (.bool value)
  | other => .error (.wrongKind other "a boolean")

/-- A text that is a URI. -/
def uri : Shape
  | .string value =>
    match Uri.parse value with
    | .ok _ => .ok (.string value)
    | .error fault => .error (.uri fault)
  | other => .error (.wrongKind other "a string")

/-- An integer between two bounds, which have a name. -/
def whole (least greatest : Int) (name : String) : Shape
  | .integer value =>
    if least ≤ value ∧ value ≤ greatest then .ok (.integer value)
    else .error (.outOfBounds value name)
  | other => .error (.wrongKind other name)

/-- An integer of 32 bits. -/
def signed : Shape := whole (-2147483648) 2147483647 "i32"

/-- A natural number of 32 bits. -/
def unsigned : Shape := whole 0 4294967295 "u32"

/-- Any number. -/
def number : Shape
  | .integer value => .ok (.integer value)
  | .real value => .ok (.real value)
  | other => .error (.wrongKind other "f32")

/-- One of some words. A word can also be sent as an object with a null under that word. -/
def word (words : List String) : Shape
  | .string value => known value
  | .object [(value, held)] => do
    let normal ← known value
    match held with
    | .null => return normal
    | other => throw (.wrongKind other "unit")
  | .object _ => .error .notOneField
  | other => .error (.wrongKind other "string or map")
where
  known (value : String) : Except ParamsFault Json :=
    if words.contains value then .ok (.string value) else .error (.unknownWord value words)

/-- A value of the first of some shapes that it has. -/
def oneOf (name : String) (shapes : List Shape) : Shape := fun value =>
  match shapes.findSome? fun shape => (shape value).toOption with
  | some normal => .ok normal
  | none => .error (.unmatched name)

/-- Values of one shape. -/
def list (shape : Shape) : Shape
  | .array items => (items.mapM shape).map .array
  | other => .error (.wrongKind other "a sequence")

/-- Values of one shape under names of another. -/
def table (key value : Shape) : Shape
  | .object fields => do
    let normal ← fields.mapM fun (name, held) => do
      let _ ← key (.string name)
      return (name, ← value held)
    return .object normal
  | other => .error (.wrongKind other "a map")

/-- A fixed number of values of one shape. -/
def tuple (count : Nat) (shape : Shape) : Shape
  | .array items => do
    let normal ← items.mapM shape
    if items.length = count then return .array normal
    else throw (.tooLong items.length count)
  | other => .error (.wrongKind other s!"an array of length {count}")

/-! ## Records -/

/-- Whether a field has to be there. -/
inductive Presence where
  /-- It has to be there. -/
  | needed
  /-- It can be left out of an object, but not of an array. -/
  | optional
  /-- It can be left out. -/
  | defaulted
deriving DecidableEq, Repr

/-- A field of a record. -/
structure Field where
  /-- The name of the field. -/
  key : String
  /-- Whether it has to be there. -/
  presence : Presence
  /-- What it looks like. -/
  shape : Shape

/-- A value that may be null. -/
def nullable (shape : Shape) : Shape
  | .null => .ok .null
  | value => shape value

/-- A field that has to be there. -/
def needs (key : String) (shape : Shape) : Field :=
  { key, presence := .needed, shape }

/-- A field that may be missing or null. -/
def may (key : String) (shape : Shape) : Field :=
  { key, presence := .optional, shape := nullable shape }

/-- A field that may be missing or null, in an array as well. -/
def mayEverywhere (key : String) (shape : Shape) : Field :=
  { key, presence := .defaulted, shape := nullable shape }

/-- Fields that may be missing or null and all look the same. -/
def mayAll (keys : List String) (shape : Shape) : List Field := keys.map (may · shape)

/-- The fields of a record in an object. Other fields are passed over. -/
def ofObject (fields : List Field) (given : List (String × Json)) : Except ParamsFault Json := do
  let normal ← given.filterMapM fun (key, value) =>
    match fields.find? fun field => field.key = key with
    | some field => do return some (key, ← field.shape value)
    | none => return none
  let isMissing (field : Field) : Bool :=
    field.presence = .needed && (given.lookup field.key).isNone
  match fields.find? isMissing with
  | some field => throw (.lacks field.key)
  | none => return .object normal

/-- The fields of a record in an array, from the field with a number on, where `short` and `long`
say what is wrong with an array of another length. -/
def ofItems (short : Nat → ParamsFault) (long : ParamsFault) :
    Nat → List Field → List Json → Except ParamsFault (List (String × Json))
  | _, [], [] => .ok []
  | _, [], _ :: _ => .error long
  | number, field :: fields, [] =>
    if field.presence = .defaulted then ofItems short long (number + 1) fields []
    else .error (short number)
  | number, field :: fields, value :: given => do
    let normal ← field.shape value
    return (field.key, normal) :: (← ofItems short long (number + 1) fields given)

/-- A record with a name. -/
def record (name : String) (fields : List Field) : Shape
  | .object given => ofObject fields given
  | .array given => do
    let short (number : Nat) : ParamsFault := .tooShort number name fields.length
    return .object (← ofItems short (.tooLong given.length fields.length) 0 fields given)
  | other => .error (.wrongKind other ("struct " ++ name))

/-- The fields of an object. -/
def fieldsOf : Json → List (String × Json)
  | .object held => held
  | _ => []

/-- A record with fields of its own, into which the fields of other records are spread. -/
def spread (name : String) (own : List Field) (parts : List (List Field)) : Shape
  | .object given => do
    let ownNormal ← ofObject own given
    let partNormals ← parts.mapM fun fields => (ofObject fields given).mapError .spread
    return .object ((ownNormal :: partNormals).flatMap fieldsOf)
  | other => .error (.wrongKind other ("struct " ++ name))

/-- A record with fields of its own, into which a table of values of one shape is spread. -/
def spreadTable (name : String) (own : List Field) (value : Shape) : Shape
  | .object given => do
    let ownNormal ← ofObject own given
    let others := given.filter fun (key, _) => own.all fun field => field.key ≠ key
    let partNormal ← (table text value (.object others)).mapError .spread
    return .object ([ownNormal, partNormal].flatMap fieldsOf)
  | other => .error (.wrongKind other ("struct " ++ name))

/-- A record that is chosen by its first field `tag`, which holds the name or the number of a choice
or stands first in an array. -/
def tagged (name tag : String) (choices : List (String × List Field)) : Shape
  | .object given => do
    match given.lookup tag with
    | some chosen =>
      record name (← choose chosen) (.object (given.filter fun (key, _) => key ≠ tag))
    | none => throw (.lacks tag)
  | .array (chosen :: given) => do record name (← choose chosen) (.array given)
  | .array [] => .error (.lacks tag)
  | other => .error (.wrongKind other ("internally tagged enum " ++ name))
where
  choose : Json → Except ParamsFault (List Field)
    | .string word =>
      match choices.lookup word with
      | some fields => .ok fields
      | none => .error (.unknownWord word (choices.map Prod.fst))
    | .integer (.ofNat number) =>
      match choices[number]? with
      | some (_, fields) => .ok fields
      | none => .error (.outOfBounds number s!"variant index 0 <= i < {choices.length}")
    | other => .error (.wrongKind other "variant identifier")

end Shape

end DiagnosticServer
