import DiagnosticServer.FileSystem.Resolve

/-!
# Changing a file system

Making directories, files and links, removing them, and changing what the process is permitted. Each
change makes the directories on its way and goes through links, as the same change by another
program with the same rights would. A change that is impossible, such as a file inside a file,
leaves everything as it was.
-/

namespace DiagnosticServer.FileSystem

/-- The file system with a node at a location. -/
def put (files : FileSystem) (location : Location) (node : Node) : FileSystem :=
  { files with nodes := files.nodes.insert location node }

/-- Where one more piece leads from a directory, which is made if nothing has that name. -/
def enter (files : FileSystem) (here : Location) (piece : Octets) :
    Option (FileSystem × Location) :=
  let there := piece :: here
  if piece = [] ∨ piece = [dot] then some (files, here)
  else if piece = [dot, dot] then some (files, here.tail)
  else
    match files.node? there with
    | none => some (files.put there (.directory {}), there)
    | some (.directory _) => some (files, there)
    | some (.file _ _) => none
    | some (.link _) =>
      match files.walk anywhere linkLimit here [piece] with
      | .ok location =>
        match files.node? location with
        | some (.directory _) => some (files, location)
        | _ => none
      | .error _ => none

/-- Where pieces lead from a directory, with the missing directories made. -/
def enterAll (files : FileSystem) (here : Location) :
    List Octets → Option (FileSystem × Location)
  | [] => some (files, here)
  | piece :: rest => do
    let (files, here) ← files.enter here piece
    enterAll files here rest

/-- The location that writing a name in a directory creates or overwrites: a link there is followed,
even one that leads to nothing yet. -/
def destination (files : FileSystem) : Nat → Location → Octets → Option Location
  | 0, _, _ => none
  | links + 1, here, name =>
    match files.node? (name :: here) with
    | some (.link target) =>
      let pieces := target.pieces
      let start := if target.octets.head? = some slash then [] else here
      match files.walk anywhere links start pieces.dropLast, pieces.getLast? with
      | .ok directory, some last => destination files links directory last
      | _, _ => none
    | _ => some (name :: here)

/-- The pieces of a path that add something, without a separator at the end. -/
def significant (path : Path) : List Octets :=
  path.pieces.filter fun piece => piece ≠ [] ∧ piece ≠ [dot]

/-- The file system with a directory. -/
def makeDirectory (files : FileSystem) (path : Path) : FileSystem :=
  match files.enterAll [] (significant path) with
  | some (changed, _) => changed
  | none => files

/-- The file system with what `change` makes of the directory and the last name of a path. -/
def changeAt (files : FileSystem) (path : Path)
    (change : FileSystem → Location → Octets → Option FileSystem) : FileSystem :=
  let pieces := significant path
  match files.enterAll [] pieces.dropLast, pieces.getLast? with
  | some (made, directory), some name => (change made directory name).getD files
  | _, _ => files

/-- The file system with a file, in place of what it held before. -/
def writeFile (files : FileSystem) (path : Path) (content : Content) : FileSystem :=
  files.changeAt path fun made directory name => do
    let location ← made.destination linkLimit directory name
    match made.node? location with
    | some (.directory _) => none
    | some (.file rights _) => some (made.put location (.file rights content))
    | _ => some (made.put location (.file {} content))

/-- The file system with a symbolic link. -/
def makeLink (files : FileSystem) (path : Path) (target : Octets) : FileSystem :=
  files.changeAt path fun made directory name =>
    some (made.put (name :: directory) (.link ⟨target⟩))

/-- The file system in which the process has these rights at a file or a directory. -/
def permit (files : FileSystem) (path : Path) (rights : Rights) : FileSystem :=
  files.changeAt path fun made directory name => do
    let location ← made.destination linkLimit directory name
    match made.node? location with
    | some (.directory _) => some (made.put location (.directory rights))
    | some (.file _ content) => some (made.put location (.file rights content))
    | _ => none

/-- The file system without a file, a link, or a directory and all it holds. -/
def remove (files : FileSystem) (path : Path) : FileSystem :=
  let pieces := significant path
  match files.walk anywhere linkLimit [] pieces.dropLast, pieces.getLast? with
  | .ok directory, some name =>
    let gone := name :: directory
    { files with nodes := files.nodes.restrict fun location => !gone.isSuffixOf location }
  | _, _ => files

end DiagnosticServer.FileSystem
