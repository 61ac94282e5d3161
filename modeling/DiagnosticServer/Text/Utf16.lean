/-!
# Lengths in UTF-16 code units

Editors count columns in UTF-16 code units: a character outside the basic plane counts twice.
-/

namespace DiagnosticServer.Text

/-- The number of UTF-16 code units of a character. -/
def units (c : Char) : Nat := if c.toNat < 0x10000 then 1 else 2

/-- The number of UTF-16 code units of a text. -/
def unitCount (text : List Char) : Nat := text.foldl (fun count c => count + units c) 0

end DiagnosticServer.Text
