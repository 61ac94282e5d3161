/-!
# URIs

A URI has a scheme, perhaps an authority, a path, perhaps a query and a fragment. Of the parts only
the scheme and the path matter here, so only they are kept, beside the text that identifies the URI:
two URIs are one exactly if their texts are.
-/

namespace DiagnosticServer

/-- A well-formed URI. -/
structure Uri where
  /-- The whole URI as it was written. -/
  text : String
  /-- What stands before the first colon. -/
  scheme : String
  /-- The path, with its percent-encoded octets. -/
  path : String
deriving DecidableEq, Repr

namespace Uri

/-- Why a text is no URI, with the index of the octet where it shows. -/
inductive Fault where
  /-- A character that cannot stand there, or the end of the text. -/
  | unexpected (index : Nat)
  /-- A percent sign without two hexadecimal digits. -/
  | badOctet (index : Nat)
  /-- What begins like an IPv6 address and is none. -/
  | badAddress (index : Nat)
deriving DecidableEq, Repr

/-- The words for a fault. -/
def Fault.message : Fault → String
  | unexpected index => s!"unexpected character at index {index}"
  | badOctet index => s!"invalid percent-encoded octet at index {index}"
  | badAddress index => s!"invalid IPv6 address at index {index}"

/-! ## Classes of characters -/

/-- Whether a character is a decimal digit. -/
def isDigit (c : Char) : Bool := '0' ≤ c && c ≤ '9'

/-- Whether a character is a letter of the English alphabet. -/
def isLetter (c : Char) : Bool := ('a' ≤ c && c ≤ 'z') || ('A' ≤ c && c ≤ 'Z')

/-- Whether a character is a hexadecimal digit. -/
def isHex (c : Char) : Bool := isDigit c || ('a' ≤ c && c ≤ 'f') || ('A' ≤ c && c ≤ 'F')

/-- Whether a character may stand anywhere for itself. -/
def isUnreserved (c : Char) : Bool :=
  isLetter c || isDigit c || c == '-' || c == '.' || c == '_' || c == '~'

/-- The characters that divide the parts of a part. -/
def subDelimiters : List Char := "!$&\x27()*+,;=".toList

/-- Whether a character may stand in the name of a host. -/
def isHost (c : Char) : Bool := isUnreserved c || subDelimiters.contains c

/-- Whether a character may stand before the host. -/
def isUserInfo (c : Char) : Bool := isHost c || c == ':'

/-- Whether a character may stand in a path. -/
def isPath (c : Char) : Bool := isUserInfo c || c == '@' || c == '/'

/-- Whether a character may stand in a query or a fragment. -/
def isQuery (c : Char) : Bool := isPath c || c == '?'

/-- Whether a character may stand in a scheme. -/
def isScheme (c : Char) : Bool := isLetter c || isDigit c || c == '+' || c == '-' || c == '.'

end Uri

end DiagnosticServer
