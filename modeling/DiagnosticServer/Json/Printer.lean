import DiagnosticServer.Json.Basic
import DiagnosticServer.Number.Shortest
import DiagnosticServer.Text.Quoted

/-!
# JSON texts

How values are written, on one line and without blanks, and how they are spoken of in messages. A
number that is not an integer is written with the fewest digits from which it can be read, with
places between `10 ^ -5` and `10 ^ 16` and with an exponent elsewhere.
-/

namespace DiagnosticServer.Json

/-- How a character is written in a text: marks, backslashes and control characters are escaped. -/
def renderChar (c : Char) : List Char :=
  let digit (n : Nat) : Char := (Nat.digitChar n)
  if c = '"' ∨ c = '\\' then ['\\', c]
  else if c = '\n' then ['\\', 'n']
  else if c = '\r' then ['\\', 'r']
  else if c = '\t' then ['\\', 't']
  else if c.toNat = 8 then ['\\', 'b']
  else if c.toNat = 12 then ['\\', 'f']
  else if c.toNat < 32 then ['\\', 'u', '0', '0', digit (c.toNat / 16), digit (c.toNat % 16)]
  else [c]

/-- A text between quotation marks. -/
def renderText (text : String) : String :=
  String.ofList ('"' :: text.toList.flatMap renderChar ++ ['"'])

/-- Digits with a point after the place of `10 ^ lead`, the place of the first digit. -/
def positional (digits : List Char) (lead : Int) : List Char :=
  if lead < 0 then '0' :: '.' :: List.replicate ((-lead).toNat - 1) '0' ++ digits
  else
    let whole := lead.toNat + 1
    let padded := digits ++ List.replicate (whole + 1 - digits.length) '0'
    padded.take whole ++ '.' :: padded.drop whole

/-- Digits with a point after the first of them, and the power of ten that goes with it. -/
def scientific (digits : List Char) (lead : Int) : List Char :=
  let places := digits.drop 1
  let point := if places = [] then [] else ['.']
  let sign := if lead < 0 then '-' else '+'
  digits.take 1 ++ point ++ places ++ 'e' :: sign :: Nat.toDigits 10 lead.natAbs

/-- A number that is not an integer. -/
def renderReal (x : Binary) : String :=
  let decimal := x.shortest
  let digits := Nat.toDigits 10 decimal.digits
  let lead := decimal.power + digits.length - 1
  let magnitude := if -5 ≤ lead ∧ lead ≤ 15 then positional digits lead else scientific digits lead
  String.ofList (if x.negative then '-' :: magnitude else magnitude)

mutual

/-- A value on one line without blanks. -/
def render : Json → String
  | null => "null"
  | bool value => if value then "true" else "false"
  | integer value => toString value
  | real value => renderReal value
  | string value => renderText value
  | array items => "[" ++ renderItems items ++ "]"
  | object fields => "\x7b" ++ renderFields fields ++ "\x7d"

/-- Values with commas between them. -/
def renderItems : List Json → String
  | [] => ""
  | [item] => render item
  | item :: rest => render item ++ "," ++ renderItems rest

/-- Named values with commas between them. -/
def renderFields : List (String × Json) → String
  | [] => ""
  | [(key, value)] => renderText key ++ ":" ++ render value
  | (key, value) :: rest => renderText key ++ ":" ++ render value ++ "," ++ renderFields rest

end

/-- How a value is spoken of when it is not of the kind that is wanted. -/
def describe : Json → String
  | null => "null"
  | bool value => if value then "boolean `true`" else "boolean `false`"
  | integer value => s!"integer `{value}`"
  | real value => "floating point `" ++ renderReal value ++ "`"
  | string value => "string " ++ Text.quote value
  | array _ => "sequence"
  | object _ => "map"

end DiagnosticServer.Json
