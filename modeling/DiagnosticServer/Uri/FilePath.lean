import DiagnosticServer.FileSystem.Resolve
import DiagnosticServer.Uri.Reader

/-!
# URIs of files

A path becomes a URI by percent-encoding every octet that may not stand for itself, and a URI
becomes a path by decoding its path part. Decoding takes any octets for UTF-8, as well as it can, so
that the path is a text whatever the octets were.
-/

namespace DiagnosticServer.Uri

/-- The hexadecimal digit of a number below sixteen. -/
def hexDigit (n : Nat) : Char := if n < 10 then Char.ofNat (48 + n) else Char.ofNat (55 + n)

/-- The number that a hexadecimal digit stands for. -/
def hexValue (c : Char) : Nat :=
  if isDigit c then c.toNat - 48 else if 'a' ≤ c then c.toNat - 87 else c.toNat - 55

/-- The octets that a text with percent-encoded octets stands for. -/
def decodeOctets : List Char → List UInt8
  | [] => []
  | '%' :: a :: b :: rest => UInt8.ofNat (hexValue a * 16 + hexValue b) :: decodeOctets rest
  | c :: rest => UInt8.ofNat c.toNat :: decodeOctets rest

/-- How an octet is written in the URI of a file. -/
def encodeOctet (octet : UInt8) : List Char :=
  let c := Char.ofNat octet.toNat
  if octet < 0x80 && (isUnreserved c || c == '/') then [c]
  else ['%', hexDigit (octet.toNat / 16), hexDigit (octet.toNat % 16)]

/-- Whether the scheme of a URI is that of files, in letters of any case. -/
def isFile (uri : Uri) : Bool := uri.scheme.toLower == "file"

/-- The path that a URI names, unless its path part is empty. -/
def toFilePath? (uri : Uri) : Option Path :=
  match Text.decodeLossy (decodeOctets uri.path.toList) with
  | [] => none
  | text => some (.mk (String.ofList text))

/-- The URI of an absolute path. -/
def ofAbsolutePath (path : Path) : Uri :=
  let encoded := String.ofList (path.octets.flatMap encodeOctet)
  ⟨"file://" ++ encoded, "file", encoded⟩

/-- The URI of a path. A relative path has one only if it leads somewhere. -/
def ofFilePath? (files : FileSystem) (path : Path) : Option Uri :=
  if path.isAbsolute then some (ofAbsolutePath path)
  else (files.canonicalize path).toOption.map ofAbsolutePath

end DiagnosticServer.Uri
