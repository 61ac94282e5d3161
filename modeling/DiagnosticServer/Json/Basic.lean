import DiagnosticServer.Number.Binary

/-!
# JSON values

The values that a client sends. An integer that fits into 64 bits stays one; any other number is a
binary number, even if it is whole.
-/

namespace DiagnosticServer

/-- A JSON value. -/
inductive Json where
  /-- The null value. -/
  | null
  /-- A truth value. -/
  | bool (value : Bool)
  /-- A number that was written as an integer. -/
  | integer (value : Int)
  /-- Any other number. -/
  | real (value : Binary)
  /-- A text. -/
  | string (value : String)
  /-- Values in order. -/
  | array (items : List Json)
  /-- Named values. A reader puts them in the order of their names. -/
  | object (fields : List (String × Json))
deriving Repr, Inhabited

namespace Json

/-- The value of a field of an object. -/
def field? (key : String) : Json → Option Json
  | object fields => fields.lookup key
  | _ => none

/-- The text, if the value is one. -/
def text? : Json → Option String
  | string value => some value
  | _ => none

/-- The truth value, if the value is one. -/
def bool? : Json → Option Bool
  | bool value => some value
  | _ => none

/-- The list of values, if the value is one. -/
def items? : Json → Option (List Json)
  | array items => some items
  | _ => none

/-- The list of texts, if the value is one. -/
def texts? : Json → Option (List String)
  | array items => items.mapM text?
  | _ => none

/-- The natural number below 2^64, if the value is one. -/
def word? : Json → Option Nat
  | integer (.ofNat n) => if n < Nat.pow 2 64 then some n else none
  | _ => none

/-- What a reader makes of a value that may be null. -/
def nullable {α : Type} (read : Json → Option α) : Json → Option (Option α)
  | null => some none
  | value => (read value).map some

end Json

end DiagnosticServer
