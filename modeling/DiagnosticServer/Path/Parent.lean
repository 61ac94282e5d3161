import DiagnosticServer.Path.Basic

/-!
# Going up and down a path

The parent of a path is its spelling up to the last component, and pushing a piece writes it at the
end. Both work on the spelling, so that a parent of `/p//b/./c` is still written `/p//b`.
-/

namespace DiagnosticServer.Path

/-- Whether a piece stands for no component after the first place of a path. -/
def isSilent (piece : Octets) : Bool := piece == [] || piece == [dot]

/-- The path spelled by a first piece and the pieces after it. An empty first piece alone is the
root. -/
def ofPieces (first : Octets) (rest : List Octets) : Path :=
  if first = [] ∧ rest = [] then ⟨[slash]⟩ else ⟨[slash].intercalate (first :: rest)⟩

/-- The path without its last component, as it was written. A path that ends at the root and the
empty path have no parent. -/
def parent (path : Path) : Option Path :=
  match path.pieces with
  | [] => none
  | first :: rest =>
    match rest.reverse.dropWhile isSilent with
    | [] => if first = [] then none else some ⟨[]⟩
    | _ :: before => some (ofPieces first (before.dropWhile isSilent).reverse)

/-- The path that many parents up; the path itself is the ancestor at zero. -/
def ancestor : Nat → Path → Option Path
  | 0, path => some path
  | steps + 1, path => path.parent.bind (ancestor steps)

/-- The path with a piece written at its end. A piece that is absolute replaces the path. -/
def push (path : Path) (piece : Octets) : Path :=
  if piece.head? = some slash then ⟨piece⟩
  else if path.octets = [] ∨ path.octets.getLast? = some slash then ⟨path.octets ++ piece⟩
  else ⟨path.octets ++ slash :: piece⟩

/-- The path that a list of pieces spells, each pushed onto those before it. -/
def ofNames (names : List Octets) : Path := names.foldl push ⟨[]⟩

end DiagnosticServer.Path
