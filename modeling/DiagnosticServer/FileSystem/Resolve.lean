import DiagnosticServer.Error
import DiagnosticServer.FileSystem.Basic

/-!
# Resolving paths

A path is followed piece by piece, an absolute one from the root and a relative one from the
current directory. A link on the way is replaced by the pieces of its target, and `..` leads to the
parent of the directory that has been reached, not of the one that was written. What comes out is a
location, or the reason why there is none. The empty path leads nowhere. A name is found only in a
directory that the process may search; what may be done with what it names does not matter.

A path can be followed in two ways. To open a file, the path must not be too long, and it does not
matter how long the paths of the places on the way are; `.` and `..` are looked up like names. To
find the path without links, each place on the way is asked for by its own path, which must not be
too long, and it does not matter how the path was written; `.` and `..` are taken off without
looking them up.
-/

namespace DiagnosticServer.FileSystem

/-- The longest name of a directory's entry, in octets. -/
def nameLimit : Nat := 255

/-- A path of this many octets is refused. -/
def pathLimit : Nat := 4096

/-- How many links are followed for one path. -/
def linkLimit : Nat := 40

/-- The one absolute path of a location without links or dots. -/
def pathOf (location : Location) : Path :=
  Path.ofComponents (.root :: location.reverse.map .name)

/-! ## Following pieces -/

/-- What is asked of the places on a way. -/
structure Guard where
  /-- Whether a location may be asked for, when these pieces come after it. -/
  admits : Location → List Octets → Bool
  /-- Whether `.` and `..` are looked up in the directory where they stand. -/
  looksUpDots : Bool

/-- Whether a piece is passed over in a directory in which no name can be looked up. -/
def Guard.passes (guard : Guard) (piece : Octets) : Bool :=
  piece = [] || !guard.looksUpDots && (piece = [dot] || piece = [dot, dot])

/-- Every location may be asked for. -/
def anywhere : Guard := ⟨fun _ _ => true, true⟩

/-- Whether pieces after a name can only come after a directory: nothing but separators and dots
follows up to the end or up to a `..`. -/
def wantsDirectory (rest : List Octets) : Bool :=
  match rest, rest.dropWhile fun piece => piece = [] ∨ piece = [dot] with
  | [], _ => false
  | _, [] => true
  | _, next :: _ => next = [dot, dot]

/-- A location may be asked for if its path is not too long. Where only a directory will do, the
path ends in a separator. -/
def withinLimit : Guard where
  admits there rest :=
    let length := (pathOf there).octets.length
    (if wantsDirectory rest then length + 1 else length) < pathLimit
  looksUpDots := false

/-- The location that pieces lead to from a location, where `follow` goes on from a directory with
other pieces once a link is met. Any piece, even an empty one, needs a directory to start from. -/
def walkWith (files : FileSystem) (guard : Guard)
    (follow : Location → List Octets → Except FileError Location) :
    Location → List Octets → Except FileError Location
  | here, [] => .ok here
  | here, piece :: rest =>
    let there := piece :: here
    match files.node? here with
    | some (.directory rights) =>
      if !rights.search && !guard.passes piece then .error .permissionDenied
      else if piece = [] ∨ piece = [dot] then walkWith files guard follow here rest
      else if piece = [dot, dot] then walkWith files guard follow here.tail rest
      else if piece.length > nameLimit then .error .nameTooLong
      else
        match files.node? there with
        | none => .error .notFound
        | some (.link target) =>
          let start := if target.octets.head? = some slash then [] else here
          if guard.admits there [] then follow start (target.pieces ++ rest)
          else .error .nameTooLong
        | some _ =>
          if guard.admits there rest then walkWith files guard follow there rest
          else .error .nameTooLong
    | some (.file _ _) => .error .notADirectory
    | _ => .error .notFound

/-- The location that pieces lead to from a location, following at most `links` links. -/
def walk (files : FileSystem) (guard : Guard) :
    Nat → Location → List Octets → Except FileError Location
  | 0 => walkWith files guard fun _ _ => .error .tooManyLinks
  | links + 1 => walkWith files guard (walk files guard links)

/-! ## Following paths -/

/-- Whether a path has a null character, which no name can have. -/
def hasNull (path : Path) : Bool := path.octets.contains 0

/-- The location that a path leads to by way of locations that may be asked for. -/
def follow (files : FileSystem) (guard : Guard) (path : Path) : Except FileError Location :=
  if hasNull path then .error .nullInName
  else if path.octets = [] then .error .notFound
  else
    files.walk guard linkLimit (if path.octets.head? = some slash then [] else files.current)
      path.pieces

/-- The location that a path leads to, if it is not too long. -/
def resolve (files : FileSystem) (path : Path) : Except FileError Location :=
  if !hasNull path && path.octets.length ≥ pathLimit then .error .nameTooLong
  else files.follow anywhere path

/-- The path without links that leads where a path leads. -/
def canonicalize (files : FileSystem) (path : Path) : Except FileError Path :=
  (files.follow withinLimit path).map pathOf

/-! ## Reading files -/

/-- The largest file that is read, in octets. -/
def sizeLimit : Nat := 50000000

/-- The text of the file that a path leads to. A file that is too large is refused before it is
opened, and so before it matters whether it may be read. -/
def load (files : FileSystem) (path : Path) : Except Error String :=
  match files.resolve path with
  | .error cause => .error (.file cause)
  | .ok location =>
    match files.node? location with
    | some (.file rights content) =>
      if content.size > sizeLimit then .error (.fileTooLarge content.size sizeLimit)
      else if !rights.read then .error (.file .permissionDenied)
      else
        match content.text? with
        | some text => .ok text
        | none => .error (.file .notUtf8)
    | some (.directory rights) =>
      .error (.file (if rights.read then .isADirectory else .permissionDenied))
    | _ => .error (.file .notFound)

end DiagnosticServer.FileSystem
