import DiagnosticServer.Uri.Address

/-!
# Reading URIs

`Uri.parse` reads a text as a URI: each part is the longest run of the characters allowed in it, and
what is left at the end is a fault.
-/

namespace DiagnosticServer.Uri

/-- The place after a colon and the digits behind it, which may follow a host. -/
def readService (cursor : Cursor) : Cursor :=
  match cursor.take? ':' with
  | some digits => digits.skipWhile isDigit
  | none => cursor

/-- The place after a host and the digits that may follow it. -/
def readHost (cursor : Cursor) : Except Fault Cursor :=
  match cursor.take? '[' with
  | some inside => (readBracketed inside).map readService
  | none => (cursor.run isHost).map fun (_, after) => readService after

/-- The indices at which a colon stands in a text that starts at an index. -/
def colons : Nat → List Char → List Nat
  | _, [] => []
  | index, c :: rest =>
    if c = ':' then index :: colons (index + 1) rest else colons (index + 1) rest

/-- Checks a host that starts at an index, with the digits that may follow it: there is at most one
colon, and only digits after it. -/
def checkHost (index : Nat) (text : List Char) : Except Fault Unit :=
  match colons index text with
  | [] => .ok ()
  | [colon] =>
    let behind := text.drop (colon + 1 - index)
    let digits := behind.takeWhile isDigit
    if digits.length = behind.length then .ok ()
    else .error (.unexpected (colon + 1 + digits.length))
  | all => .error (.unexpected (all.getLast?.getD index))

/-- The place after an authority. What stands before an `@` is read like a host at first, because
only the `@` tells. -/
def readAuthority (cursor : Cursor) : Except Fault Cursor := do
  let (taken, after) ← cursor.run isUserInfo
  match after.take? '@' with
  | some host => readHost host
  | none =>
    if taken = [] then
      match after.take? '[' with
      | some inside => return readService (← readBracketed inside)
      | none => return after
    else
      checkHost cursor.index taken
      return after

/-- The place after the scheme and its colon, and the scheme. A scheme starts with a letter. -/
def readScheme (cursor : Cursor) : Except Fault (List Char × Cursor) :=
  let scheme := cursor.rest.takeWhile isScheme
  let after := cursor.skip scheme.length
  match after.take? ':' with
  | none => .error (.unexpected after.index)
  | some body =>
    if (scheme.head?.map isLetter).getD false then .ok (scheme, body) else .error (.unexpected 0)

/-- The place after an optional part that starts with `mark`. -/
def readMarked (mark : Char) (cursor : Cursor) : Except Fault Cursor :=
  match cursor.take? mark with
  | some body => (body.run isQuery).map Prod.snd
  | none => .ok cursor

/-- The place after the authority, if two slashes announce one, and whether they did. -/
def readOptionalAuthority (cursor : Cursor) : Except Fault (Bool × Cursor) :=
  match (cursor.take? '/').bind fun next => next.take? '/' with
  | some authority => (readAuthority authority).map fun after => (true, after)
  | none => .ok (false, cursor)

/-- The URI that a text spells. -/
def parse (text : String) : Except Fault Uri := do
  let (scheme, body) ← readScheme ⟨0, text.toList⟩
  let (hasAuthority, start) ← readOptionalAuthority body
  let (path, after) ← start.run isPath
  if hasAuthority && (path.head?.map (· != '/')).getD false then throw (.unexpected start.index)
  let after ← readMarked '#' (← readMarked '?' after)
  if after.rest = [] then return ⟨text, String.ofList scheme, String.ofList path⟩
  else throw (.unexpected after.index)

end DiagnosticServer.Uri
