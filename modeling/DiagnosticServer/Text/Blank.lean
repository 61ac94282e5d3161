/-!
# Blank characters

The characters with the Unicode property White_Space, and trimming and deleting them. The zero-width
space and the byte-order mark do not have the property, and neither do the separators U+001C to
U+001F.
-/

namespace DiagnosticServer.Text

/-- Whether a character has the Unicode property White_Space. -/
def isBlank (c : Char) : Bool :=
  let n := c.toNat
  (0x09 ≤ n && n ≤ 0x0D) || n == 0x20 || n == 0x85 || n == 0xA0 || n == 0x1680 ||
    (0x2000 ≤ n && n ≤ 0x200A) || n == 0x2028 || n == 0x2029 || n == 0x202F || n == 0x205F ||
    n == 0x3000

/-- A text without the blanks at its two ends. -/
def trim (text : List Char) : List Char :=
  ((text.dropWhile isBlank).reverse.dropWhile isBlank).reverse

/-- A text without any blanks. -/
def dropBlanks (text : List Char) : List Char :=
  text.filter fun c => !isBlank c

end DiagnosticServer.Text
