import DiagnosticServer.Path.Normal
import DiagnosticServer.Uri.FilePath

/-!
# Identities of files

The key under which a source file is known, whichever path or URI names it: the lexical normal form
of the path, with its links resolved if it leads to something.
-/

namespace DiagnosticServer

/-- The key of a source file. -/
structure Identity where
  /-- The path in its normal form. -/
  path : Path
deriving DecidableEq, Repr

namespace Identity

/-- How an identity is written in messages. -/
def text (id : Identity) : String := id.path.text

/-- The identity of the file that a path names. -/
def ofPath (files : FileSystem) (path : Path) : Identity :=
  match files.canonicalize path.normalize with
  | .ok canonical => ⟨canonical⟩
  | .error _ => ⟨path.normalize⟩

/-- The identity of the file that a URI names. Only URIs of files name one. -/
def ofUri (files : FileSystem) (uri : Uri) : Except Error Identity :=
  match if uri.isFile then uri.toFilePath? else none with
  | some path => .ok (ofPath files path)
  | none => .error (.invalidUri uri.text)

/-- The URI under which a file is spoken of. -/
def toUri? (files : FileSystem) (id : Identity) : Option Uri := Uri.ofFilePath? files id.path

end Identity

end DiagnosticServer
