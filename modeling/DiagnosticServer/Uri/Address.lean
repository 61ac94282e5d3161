import DiagnosticServer.Uri.Cursor

/-!
# Addresses in brackets

A host may be an IPv6 address in brackets: eight groups of up to four hexadecimal digits, of which
`::` stands for one or more groups of zeros, and the last two of which may be written as an IPv4
address. A host in brackets may also be an address of a later version, led by a `v`. The value of
the address is not needed, only whether it is one and how far it was read.
-/

namespace DiagnosticServer.Uri

/-- What stands at the next place of an IPv6 address. -/
inductive Group where
  /-- Hexadecimal digits, perhaps after a colon. -/
  | digits (colon : Bool)
  /-- Two colons. -/
  | ellipsis
  /-- What may be an IPv4 address, perhaps after a colon. Only the colon has been read. -/
  | dotted (colon : Bool)
  /-- A colon with nothing behind it that could belong to the address. -/
  | strayColon
deriving DecidableEq, Repr

/-- The next group of an IPv6 address and the place after it. A group that reaches the end of the
text is read and does not count. -/
def readGroup (cursor : Cursor) : Option Group × Cursor :=
  let colon := (cursor.take? ':').isSome
  let cursor := (cursor.take? ':').getD cursor
  let digits := (cursor.rest.take 4).takeWhile isHex
  let after := cursor.skip digits.length
  match cursor.rest with
  | [] => (if colon then some .strayColon else none, cursor)
  | first :: _ =>
    if digits = [] then
      if !colon then (none, cursor)
      else if first = ':' then (some .ellipsis, cursor.skip 1)
      else (some .strayColon, cursor)
    else if digits.length < 4 && after.rest.isEmpty then (none, after)
    else if digits.length < 4 && after.rest.head? = some '.' then (some (.dotted colon), cursor)
    else (some (.digits colon), after)

/-- The place after a number from 0 to 255 without leading zeros. -/
def readNumber (cursor : Cursor) : Option Cursor :=
  match (cursor.rest.take 3).takeWhile isDigit with
  | [] => none
  | '0' :: _ => some (cursor.skip 1)
  | digits =>
    if digits.foldl (fun value c => value * 10 + (c.toNat - '0'.toNat)) 0 ≤ 255 then
      some (cursor.skip digits.length)
    else none

/-- The place after an IPv4 address. -/
def readDotted (cursor : Cursor) : Option Cursor := do
  let second ← (← readNumber cursor).take? '.'
  let third ← (← readNumber second).take? '.'
  let fourth ← (← readNumber third).take? '.'
  readNumber fourth

/-- What follows `count` groups of an IPv6 address, the first `elided` of which stand before its
ellipsis if it has had one. The answer is whether it is an address, and the place where reading
stopped. Each round reads at least one character, so that many rounds suffice. -/
def readGroups : Nat → Nat → Option Nat → Cursor → Bool × Cursor
  | 0, _, _, cursor => (false, cursor)
  | rounds + 1, count, elided, cursor =>
    let whole := if elided.isSome then count < 8 else count = 8
    if count = 8 then (whole, cursor)
    else
      match readGroup cursor with
      | (some (.digits colon), after) =>
        if colon = (count = 0 || elided = some count) then (false, after)
        else readGroups rounds (count + 1) elided after
      | (some .ellipsis, after) =>
        if elided.isSome then (false, after) else readGroups rounds count (some count) after
      | (some (.dotted colon), after) =>
        if count > 6 || colon = (elided = some count : Bool) then (false, after)
        else
          match readDotted after with
          | some last => (if elided.isSome then count + 2 < 8 else count + 2 = 8, last)
          | none => (false, after)
      | (some .strayColon, after) => (false, after)
      | (none, after) => (whole, after)

/-- Whether an IPv6 address stands at a place, and the place where reading it stopped. -/
def readAddress (cursor : Cursor) : Bool × Cursor :=
  readGroups (cursor.rest.length + 1) 0 none cursor

/-- The place after an address of a later version: `v`, a version in hexadecimal, a dot, and
something. -/
def readFutureAddress (cursor : Cursor) : Except Fault Cursor :=
  match cursor.rest with
  | first :: _ =>
    if first = 'v' ∨ first = 'V' then
      let start := cursor.skip 1
      let version := start.skipWhile isHex
      if version.index = start.index then .error (.unexpected version.index)
      else
        match version.take? '.' with
        | none => .error (.unexpected version.index)
        | some body =>
          let stop := body.skipWhile isUserInfo
          if stop.index = body.index then .error (.unexpected stop.index) else .ok stop
    else .error (.unexpected cursor.index)
  | [] => .error (.unexpected cursor.index)

/-- The place after a host in brackets, of which the opening one has been read. -/
def readBracketed (cursor : Cursor) : Except Fault Cursor := do
  let (isAddress, stop) := readAddress cursor
  let stop ←
    if isAddress then pure stop
    else if stop.index = cursor.index then readFutureAddress cursor
    else throw (.badAddress cursor.index)
  match stop.take? ']' with
  | some after => return after
  | none => throw (.unexpected stop.index)

end DiagnosticServer.Uri
