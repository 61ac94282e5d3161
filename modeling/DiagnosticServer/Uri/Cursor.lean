import DiagnosticServer.Uri.Basic

/-!
# A place in a text being read

Readers of URIs take characters from the front of a text and report the index where they stopped.
All that they accept is ASCII, so characters and octets count alike up to the first fault.
-/

namespace DiagnosticServer.Uri

/-- What is left of a text, and how much has been read. -/
structure Cursor where
  /-- The number of octets read. -/
  index : Nat
  /-- What is left. -/
  rest : List Char
deriving DecidableEq, Repr

namespace Cursor

/-- The place some characters further on. -/
def skip (cursor : Cursor) (count : Nat) : Cursor :=
  ⟨cursor.index + count, cursor.rest.drop count⟩

/-- The place after `c`, if it comes next. -/
def take? (cursor : Cursor) (c : Char) : Option Cursor :=
  if cursor.rest.head? = some c then some (cursor.skip 1) else none

/-- The place after the longest run of allowed characters. -/
def skipWhile (cursor : Cursor) (allowed : Char → Bool) : Cursor :=
  cursor.skip (cursor.rest.takeWhile allowed).length

/-- The longest run of allowed characters and percent-encoded octets of a text at an index, with the
place after it. -/
def runFrom (allowed : Char → Bool) : Nat → List Char → Except Fault (List Char × Cursor)
  | index, [] => .ok ([], ⟨index, []⟩)
  | index, '%' :: a :: b :: rest =>
    if isHex a && isHex b then do
      let (taken, cursor) ← runFrom allowed (index + 3) rest
      return ('%' :: a :: b :: taken, cursor)
    else .error (.badOctet index)
  | index, c :: rest =>
    if c = '%' then .error (.badOctet index)
    else if allowed c then do
      let (taken, cursor) ← runFrom allowed (index + 1) rest
      return (c :: taken, cursor)
    else .ok ([], ⟨index, c :: rest⟩)

/-- The longest run of allowed characters and percent-encoded octets, with the place after it. -/
def run (cursor : Cursor) (allowed : Char → Bool) : Except Fault (List Char × Cursor) :=
  runFrom allowed cursor.index cursor.rest

end Cursor

end DiagnosticServer.Uri
