import DiagnosticServer.Text.Invisible

/-!
# Quoted texts

A text between quotation marks, in which every character can be told apart: marks and backslashes
are led by a backslash, and characters without a shape are written by their code points.
-/

namespace DiagnosticServer.Text

/-- The lower-case hexadecimal digits of a number. -/
def hexDigits (n : Nat) : List Char := Nat.toDigits 16 n

/-- How a character is written between quotation marks. -/
def quoteChar (c : Char) : List Char :=
  if c = Char.ofNat 0 then ['\\', '0']
  else if c = '\t' then ['\\', 't']
  else if c = '\r' then ['\\', 'r']
  else if c = '\n' then ['\\', 'n']
  else if c = '"' ∨ c = '\\' then ['\\', c]
  else if isInvisible c then "\\u\x7b".toList ++ hexDigits c.toNat ++ "\x7d".toList
  else [c]

/-- A text between quotation marks. -/
def quote (text : String) : String :=
  String.ofList ('"' :: text.toList.flatMap quoteChar ++ ['"'])

end DiagnosticServer.Text
