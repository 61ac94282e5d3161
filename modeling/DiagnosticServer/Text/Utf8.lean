/-!
# Texts as octets

A text is stored and sent as UTF-8. Byte offsets into a text are meaningful only at the boundaries
of its characters, so cutting by octets is partial. Reading octets that may be no UTF-8 at all is
total: each longest sequence that begins well and does not end well is read as one replacement
character.
-/

namespace DiagnosticServer.Text

/-- The number of octets of a text. -/
def octetCount (text : List Char) : Nat :=
  text.foldl (fun count c => count + c.utf8Size) 0

/-- The octets of a text. -/
def encode (text : List Char) : List UInt8 :=
  text.flatMap String.utf8EncodeChar

/-- The text after its first `count` octets, if they end at the boundary of a character. -/
def dropOctets : Nat → List Char → Option (List Char)
  | 0, text => some text
  | _ + 1, [] => none
  | count + 1, c :: rest =>
    if c.utf8Size ≤ count + 1 then dropOctets (count + 1 - c.utf8Size) rest else none

/-- The first `count` octets of a text, if they end at the boundary of a character. -/
def takeOctets : Nat → List Char → Option (List Char)
  | 0, _ => some []
  | _ + 1, [] => none
  | count + 1, c :: rest =>
    if c.utf8Size ≤ count + 1 then (takeOctets (count + 1 - c.utf8Size) rest).map (c :: ·) else none

/-- The characters between two byte offsets, if both are boundaries of characters in that order. -/
def slice (text : List Char) (start stop : Nat) : Option (List Char) :=
  if start ≤ stop then (dropOctets start text).bind (takeOctets (stop - start)) else none

/-! ## Reading arbitrary octets -/

/-- What stands for octets that are no character. -/
def replacement : Char := Char.ofNat 0xFFFD

/-- Whether an octet continues a character. -/
def isContinuation (octet : UInt8) : Bool := 0x80 ≤ octet && octet ≤ 0xBF

/-- The octets that may follow `lead` at the start of a character, as a closed range. The ranges
leave out the overlong forms, the surrogates, and what lies above U+10FFFF. -/
def secondRange (lead : UInt8) : UInt8 × UInt8 :=
  if lead == 0xE0 then (0xA0, 0xBF)
  else if lead == 0xED then (0x80, 0x9F)
  else if lead == 0xF0 then (0x90, 0xBF)
  else if lead == 0xF4 then (0x80, 0x8F)
  else (0x80, 0xBF)

/-- How many octets follow `lead` in its character, if it can lead one. -/
def followers (lead : UInt8) : Option Nat :=
  if lead < 0x80 then some 0
  else if 0xC2 ≤ lead && lead ≤ 0xDF then some 1
  else if 0xE0 ≤ lead && lead ≤ 0xEF then some 2
  else if 0xF0 ≤ lead && lead ≤ 0xF4 then some 3
  else none

/-- How many of the first `wanted` octets after `lead` go on with its character. -/
def continuations (lead : UInt8) (wanted : Nat) (rest : List UInt8) : Nat :=
  match wanted, rest with
  | 0, _ => 0
  | _ + 1, [] => 0
  | wanted + 1, second :: rest =>
    if (secondRange lead).1 ≤ second && second ≤ (secondRange lead).2 then
      1 + ((rest.take wanted).takeWhile isContinuation).length
    else 0

/-- The code point of a whole sequence of octets: the low six bits of each octet after the lead. -/
def codePoint (lead : UInt8) (rest : List UInt8) : Nat :=
  let high :=
    match rest.length with
    | 0 => lead.toNat
    | 1 => lead.toNat % 0x20
    | 2 => lead.toNat % 0x10
    | _ => lead.toNat % 0x08
  rest.foldl (fun value octet => value * 0x40 + octet.toNat % 0x40) high

/-- The character that `lead` and the octets after it begin with, and how many of those octets it
takes. -/
def leadingChar (lead : UInt8) (rest : List UInt8) : Char × Nat :=
  match followers lead with
  | none => (replacement, 0)
  | some wanted =>
    let found := continuations lead wanted rest
    if found = wanted then (Char.ofNat (codePoint lead (rest.take wanted)), wanted)
    else (replacement, found)

/-- The text that octets spell, with one replacement character for each longest sequence of octets
that begins a character and does not complete it. -/
def decodeLossy : List UInt8 → List Char
  | [] => []
  | lead :: rest =>
    (leadingChar lead rest).1 :: decodeLossy (rest.drop (leadingChar lead rest).2)
termination_by octets => octets.length
decreasing_by
  simp only [List.length_drop, List.length_cons]
  omega

end DiagnosticServer.Text
