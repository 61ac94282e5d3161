import DiagnosticServer.Text.Octets

/-!
# Paths and their components

A path keeps the octets it was written as, which need not be a text. Its meaning is its list of
components: repeated separators, a separator at the end, and every `.` but one at the very start of
a relative path add nothing. Two spellings of one list of components are the same path, and all
comparisons of paths go by components; `..` is a component like any other and is never resolved
here.
-/

namespace DiagnosticServer

/-- A path as it was written. -/
structure Path where
  /-- The path that octets spell. -/
  ofOctets ::
  /-- The spelling. -/
  octets : Octets
deriving DecidableEq, Repr, Inhabited

namespace Path

/-- The path that a text spells. -/
def mk (text : String) : Path := ⟨text⟩

/-- The text by which a path is shown. -/
def text (path : Path) : String := Octets.text path.octets

/-- One step of a path. -/
inductive Component where
  /-- The separator that starts an absolute path. -/
  | root
  /-- The `.` that starts a relative path. -/
  | current
  /-- A `..`. -/
  | parent
  /-- Anything else: the name of an entry of a directory. -/
  | name (octets : Octets)
deriving DecidableEq, Repr

namespace Component

/-- The component that a piece between two separators stands for, if it stands for one. -/
def ofPiece? (piece : Octets) : Option Component :=
  if piece = [] ∨ piece = [dot] then none
  else if piece = [dot, dot] then some .parent
  else some (.name piece)

/-- How a component is written. -/
def octets : Component → Octets
  | root => [slash]
  | current => [dot]
  | parent => [dot, dot]
  | name octets => octets

/-- The place of a component's kind in the order of components. -/
def rank : Component → Nat
  | root => 0
  | current => 1
  | parent => 2
  | name _ => 3

/-- Components are ordered by kind, and names by their octets. -/
def compare : Component → Component → Ordering
  | name a, name b => Ord.compare a b
  | a, b => Ord.compare a.rank b.rank

end Component

/-- The pieces of a path between its separators. -/
def pieces (path : Path) : List Octets := path.octets.splitOn slash

/-- The component that the first piece of a path stands for: before a separator an empty piece is
the root, and `.` counts here and nowhere else. -/
def leading (first : Octets) (rest : List Octets) : Option Component :=
  if first = [] then if rest = [] then none else some .root
  else if first = [dot] then some .current
  else Component.ofPiece? first

/-- The components of a path. -/
def components (path : Path) : List Component :=
  match path.pieces with
  | [] => []
  | first :: rest => (leading first rest).toList ++ rest.filterMap Component.ofPiece?

/-- The path that a list of components spells, with single separators. -/
def ofComponents : List Component → Path
  | .root :: rest => ⟨slash :: [slash].intercalate (rest.map Component.octets)⟩
  | all => ⟨[slash].intercalate (all.map Component.octets)⟩

/-- Whether two paths have the same components. -/
def same (a b : Path) : Bool := a.components == b.components

/-- Paths are ordered by their components, and a path comes before the paths below it. -/
def compare (a b : Path) : Ordering := go a.components b.components
where
  go : List Component → List Component → Ordering
    | [], [] => .eq
    | [], _ :: _ => .lt
    | _ :: _, [] => .gt
    | x :: xs, y :: ys => (x.compare y).then (go xs ys)

/-- Whether a path starts at the root. -/
def isAbsolute (path : Path) : Bool := path.components.head? == some .root

/-- Whether `path` is `base` or lies below it. -/
def startsWith (path base : Path) : Bool := base.components.isPrefixOf path.components

/-- Whether the last components of `path` are those of `tail`. -/
def endsWith (path tail : Path) : Bool := tail.components.isSuffixOf path.components

/-- The components of `path` below `base`, if it lies there. -/
def below? (path base : Path) : Option (List Component) :=
  if path.startsWith base then some (path.components.drop base.components.length) else none

/-- The number of components of a path. -/
def depth (path : Path) : Nat := path.components.length

end Path

end DiagnosticServer
