import DiagnosticServer.Json.Basic

/-!
# Reading JSON

A reader takes a value from the start of a text and gives what comes after it. Blanks may stand
between the parts. The fields of an object are put in the order of their names, and of two with one
name the later counts.
-/

namespace DiagnosticServer.Json

/-- The text after the blanks at its start. -/
def skipBlanks (text : List Char) : List Char :=
  text.dropWhile fun c => c = ' ' ∨ c = '\t' ∨ c = '\n' ∨ c = '\r'

/-! ## Texts -/

/-- The number that a hexadecimal digit stands for. -/
def hexValue? (c : Char) : Option Nat :=
  if '0' ≤ c ∧ c ≤ '9' then some (c.toNat - 48)
  else if 'a' ≤ c ∧ c ≤ 'f' then some (c.toNat - 87)
  else if 'A' ≤ c ∧ c ≤ 'F' then some (c.toNat - 55)
  else none

/-- The number that four hexadecimal digits stand for. -/
def unit? (a b c d : Char) : Option Nat := do
  return (((← hexValue? a) * 16 + (← hexValue? b)) * 16 + (← hexValue? c)) * 16 + (← hexValue? d)

/-- The character of an escape by one letter. -/
def escaped? : Char → Option Char
  | '"' => some '"'
  | '\\' => some '\\'
  | '/' => some '/'
  | 'b' => some (Char.ofNat 8)
  | 'f' => some (Char.ofNat 12)
  | 'n' => some '\n'
  | 'r' => some '\r'
  | 't' => some '\t'
  | _ => none

/-- Whether a unit is the first of a pair that stands for one character. -/
def isLeading (unit : Nat) : Bool := 0xD800 ≤ unit && unit < 0xDC00

/-- Whether a unit is the second of a pair that stands for one character. -/
def isTrailing (unit : Nat) : Bool := 0xDC00 ≤ unit && unit < 0xE000

/-- A text up to the mark that ends it, after the characters already read, the last one first. -/
def readText (read : List Char) : List Char → Option (String × List Char)
  | '"' :: rest => some (String.ofList read.reverse, rest)
  | '\\' :: 'u' :: a :: b :: c :: d :: '\\' :: 'u' :: e :: f :: g :: h :: rest =>
    match unit? a b c d, unit? e f g h with
    | some first, some second =>
      if isLeading first && isTrailing second then
        readText (Char.ofNat (0x10000 + (first - 0xD800) * 1024 + (second - 0xDC00)) :: read) rest
      else if isLeading first || isTrailing first then none
      else readText (Char.ofNat first :: read) ('\\' :: 'u' :: e :: f :: g :: h :: rest)
    | _, _ => none
  | '\\' :: 'u' :: a :: b :: c :: d :: rest =>
    match unit? a b c d with
    | some unit =>
      if isLeading unit || isTrailing unit then none else readText (Char.ofNat unit :: read) rest
    | none => none
  | '\\' :: letter :: rest =>
    match escaped? letter with
    | some c => readText (c :: read) rest
    | none => none
  | c :: rest => if c.toNat < 32 then none else readText (c :: read) rest
  | [] => none

/-! ## Numbers -/

/-- One more than the largest number that digits are gathered into. -/
def digitLimit : Nat := Nat.pow 2 64

/-- Digits gathered into a number as far as it stays below the limit, and how many were left. -/
def gather (number : Nat) : List Char → Nat × Nat
  | [] => (number, 0)
  | c :: rest =>
    let more := number * 10 + (c.toNat - 48)
    if more < digitLimit then gather more rest else (number, rest.length + 1)

/-- The number for an integer without places or exponent. What does not fit into 64 bits, and the
negative zero, is no integer. -/
def ofInteger? (negative : Bool) (digits : Nat) : Option Json :=
  if !negative then some (.integer digits)
  else if 0 < digits ∧ digits ≤ Nat.pow 2 63 then some (.integer (-digits))
  else (Binary.ofDecimal? true digits 0).map .real

/-- The digits at the start of a text, and what comes after them. -/
def digitsOf (text : List Char) : List Char × List Char := text.span Char.isDigit

/-- The exponent at the start of a text, if there is one, and what comes after it. -/
def readExponent (text : List Char) : Option Int × List Char :=
  match text with
  | e :: rest =>
    if e = 'e' ∨ e = 'E' then
      let (negative, rest) :=
        match rest with
        | '-' :: rest => (true, rest)
        | '+' :: rest => (false, rest)
        | rest => (false, rest)
      let (digits, rest) := digitsOf rest
      let value : Nat := digits.foldl (fun n c => n * 10 + (c.toNat - 48)) 0
      (some (if negative then -(value : Int) else value), rest)
    else (none, text)
  | [] => (none, [])

/-- The places at the start of a text, if there are any, and what comes after them. -/
def readPlaces (text : List Char) : Option (List Char) × List Char :=
  match text with
  | '.' :: rest => let (digits, rest) := digitsOf rest; (some digits, rest)
  | _ => (none, text)

/-- A number without its sign. Of the digits only those count that can be gathered; a digit before
the point that is left out still counts as a place. -/
def readMagnitude (negative : Bool) (text : List Char) : Option (Json × List Char) :=
  match digitsOf text with
  | ([], _) => none
  | (whole, rest) =>
    let (places, rest) := readPlaces rest
    let (exponent, rest) := readExponent rest
    let (number, left) := gather 0 whole
    match places, exponent, left with
    | none, none, 0 => (ofInteger? negative number).map fun value => (value, rest)
    | places, exponent, left =>
      let fraction := places.getD []
      let (number, ignored) := gather number fraction
      let power : Int := left - (fraction.length - ignored : Nat) + exponent.getD 0
      (Binary.ofDecimal? negative number power).map fun value => (.real value, rest)

/-! ## Values -/

/-- The fields of an object with one more, in the order of their names. -/
def insertField (key : String) (value : Json) : List (String × Json) → List (String × Json)
  | [] => [(key, value)]
  | (other, held) :: rest =>
    match compare key other with
    | .lt => (key, value) :: (other, held) :: rest
    | .eq => (key, value) :: rest
    | .gt => (other, held) :: insertField key value rest

mutual

/-- The value at the start of a text, and what comes after it. -/
def readValue : Nat → List Char → Option (Json × List Char)
  | 0, _ => none
  | fuel + 1, text =>
    match skipBlanks text with
    | 'n' :: 'u' :: 'l' :: 'l' :: rest => some (.null, rest)
    | 't' :: 'r' :: 'u' :: 'e' :: rest => some (.bool true, rest)
    | 'f' :: 'a' :: 'l' :: 's' :: 'e' :: rest => some (.bool false, rest)
    | '"' :: rest => (readText [] rest).map fun (value, rest) => (.string value, rest)
    | '[' :: rest =>
      match skipBlanks rest with
      | ']' :: rest => some (.array [], rest)
      | rest => readItems fuel [] rest
    | '{' :: rest =>
      match skipBlanks rest with
      | '}' :: rest => some (.object [], rest)
      | rest => readFields fuel [] rest
    | '-' :: rest => readMagnitude true rest
    | rest => readMagnitude false rest

/-- The values up to the end of an array, after those already read, the last one first. -/
def readItems : Nat → List Json → List Char → Option (Json × List Char)
  | 0, _, _ => none
  | fuel + 1, read, text =>
    match readValue fuel text with
    | some (item, rest) =>
      match skipBlanks rest with
      | ',' :: rest => readItems fuel (item :: read) rest
      | ']' :: rest => some (.array (item :: read).reverse, rest)
      | _ => none
    | none => none

/-- The named values up to the end of an object, together with those already read. -/
def readFields : Nat → List (String × Json) → List Char → Option (Json × List Char)
  | 0, _, _ => none
  | fuel + 1, read, text =>
    match skipBlanks text with
    | '"' :: rest =>
      match readText [] rest with
      | some (key, rest) =>
        match skipBlanks rest with
        | ':' :: rest =>
          match readValue fuel rest with
          | some (value, rest) =>
            match skipBlanks rest with
            | ',' :: rest => readFields fuel (insertField key value read) rest
            | '}' :: rest => some (.object (insertField key value read), rest)
            | _ => none
          | none => none
        | _ => none
      | none => none
    | _ => none

end

/-- The value that a text spells. No value has more than two steps for each character. -/
def parse? (text : String) : Option Json :=
  let chars := text.toList
  match readValue (2 * chars.length + 2) chars with
  | some (value, rest) => if skipBlanks rest = [] then some value else none
  | none => none

end DiagnosticServer.Json
