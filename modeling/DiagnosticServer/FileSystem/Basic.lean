import DiagnosticServer.Path.Basic
import DiagnosticServer.Table

/-!
# A file system

A tree of directories, files and symbolic links, as a table from locations to what stands there. A
location lists the names that lead to it from the root, the last name first, and is the same for
everyone who arrives there, whatever path was taken. Names are octets, and need not be a text. One
directory is the current one, where relative paths start. It is always there, and so are the root
and the other directories above it, and names can be looked up in all of them.

Devices, pipes and sockets are left out: what is read from them is not on the disk.
-/

namespace DiagnosticServer

/-- The octets of a file. -/
inductive Content where
  /-- These octets. -/
  | octets (data : ByteArray)
  /-- That many null octets, which a sparse file need not store. -/
  | zeros (count : Nat)

namespace Content

/-- The number of octets. -/
def size : Content → Nat
  | octets data => data.size
  | zeros count => count

/-- The text that the octets spell, if they are UTF-8. -/
def text? : Content → Option String
  | octets data => String.fromUTF8? data
  | zeros count => some ("".pushn (Char.ofNat 0) count)

end Content

/-- What the process is permitted. -/
structure Rights where
  /-- Whether it may read the file or list the directory. -/
  read : Bool := true
  /-- Whether it may look up names in the directory. -/
  search : Bool := true
deriving DecidableEq, Repr

/-- What can stand at a location. -/
inductive Node where
  /-- A directory. -/
  | directory (rights : Rights)
  /-- A file with its content. -/
  | file (rights : Rights) (content : Content)
  /-- A symbolic link with the path it leads to, relative to the directory of the link. -/
  | link (target : Path)

/-- The names that lead to a place from the root, the last name first. -/
abbrev Location := List Octets

/-- Whether octets can be the name of an entry of a directory: they are one piece of a path and
stand for themselves. -/
def isName (octets : Octets) : Bool :=
  octets ≠ [] && octets ≠ [dot] && octets ≠ [dot, dot] && !octets.contains slash

/-- A tree of directories, files and links. -/
structure FileSystem where
  /-- What stands where. -/
  nodes : Table Location Node
  /-- The current directory. -/
  current : Location
  /-- The current directory can be reached by its names. -/
  current_names : current.all isName

namespace FileSystem

/-- A file system with nothing but the current directory and those above it. -/
def empty (current : Location) (names : current.all isName) : FileSystem :=
  ⟨Table.empty, current, names⟩

/-- What stands at a location. -/
def node? (files : FileSystem) (location : Location) : Option Node :=
  if location.isSuffixOf files.current then some (.directory {}) else files.nodes.get? location

end FileSystem

end DiagnosticServer
