import DiagnosticServer.Text.Utf8

/-!
# Octets that need not be a text

The names on a disk are octets, and nothing makes them UTF-8. A text stands for its octets, and
octets are shown by reading them as UTF-8, as well as that goes. So octets that are no UTF-8 are
shown by a text that stands for other octets.
-/

namespace DiagnosticServer

/-- A sequence of octets. -/
abbrev Octets := List UInt8

namespace Octets

/-- The octets of a text. -/
def ofText (text : String) : Octets := Text.encode text.toList

/-- Where octets are asked for, a text stands for its own. -/
instance : Coe String Octets := ⟨ofText⟩

/-- The text by which octets are shown. -/
def text (octets : Octets) : String := String.ofList (Text.decodeLossy octets)

/-- Whether octets are those of the text by which they are shown. -/
def IsText (octets : Octets) : Prop := ofText (text octets) = octets

instance (octets : Octets) : Decidable (IsText octets) :=
  inferInstanceAs (Decidable (ofText (text octets) = octets))

end Octets

/-- The octet of a dot. -/
abbrev dot : UInt8 := 0x2E

/-- The octet that separates the pieces of a path. -/
abbrev slash : UInt8 := 0x2F

end DiagnosticServer
