import DiagnosticServer.Problem
import DiagnosticServer.Text.Utf16
import DiagnosticServer.Text.Utf8
import DiagnosticServer.Tree.Basic

/-!
# Places of nodes

A grammar counts columns in octets, an editor in UTF-16 code units. The column of a point is found
by measuring the text between the start of its row and the point. A point that does not lie in the
text keeps the column it came with. Lines and columns are counted from one in 32 bits, which is
enough for every text with fewer than `2 ^ 32 - 1` octets.
-/

namespace DiagnosticServer

namespace Text

/-- The text from the start of a row on, if it has that many rows. -/
def fromRow : Nat → List Char → Option (List Char)
  | 0, text => some text
  | _ + 1, [] => none
  | row + 1, c :: rest => if c = '\n' then fromRow row rest else fromRow (row + 1) rest

end Text

namespace Point

/-- The number from one, in 32 bits, of what has a number from zero. -/
def fromOne (number : Nat) : Nat := (number + 1) % UInt32.size

/-- The column of a point in UTF-16 code units, counted from one. -/
def textColumn (text : List Char) (point : Point) : Nat :=
  match (Text.fromRow point.row text).bind (Text.takeOctets point.column) with
  | some before => fromOne (Text.unitCount before)
  | none => fromOne point.column

/-- The position of a point in a text. -/
def position (text : List Char) (point : Point) : Position :=
  ⟨fromOne point.row, point.textColumn text⟩

end Point

namespace Label

/-- The place of a node in the text. -/
def place (text : List Char) (label : Label) : Range :=
  ⟨label.start.position text, label.stop.position text⟩

/-- What the text has where the node is, if the node lies at boundaries of characters. -/
def spelling (text : List Char) (label : Label) : Option (List Char) :=
  Text.slice text label.startByte label.stopByte

end Label

end DiagnosticServer
