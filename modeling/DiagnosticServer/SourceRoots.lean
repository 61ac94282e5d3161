import DiagnosticServer.Path.Basic

/-!
# Source roots

The directories under which a project keeps its packages, in the order in which they became known.
The list only grows, and holds no path twice however it is spelled. What a parse sees is the list at
its start.
-/

namespace DiagnosticServer

/-- The source roots known so far, oldest first. -/
abbrev SourceRoots := List Path

namespace SourceRoots

/-- Whether a root is known, in any spelling. -/
def knows (roots : SourceRoots) (root : Path) : Bool := roots.any root.same

/-- The roots with one more at the end, unless it is known. -/
def register (roots : SourceRoots) (root : Path) : SourceRoots :=
  if roots.knows root then roots else roots ++ [root]

/-- The roots with several more, each registered after those before it. -/
def registerAll (roots : SourceRoots) (more : List Path) : SourceRoots :=
  more.foldl register roots

/-- The roots that hold a path. -/
def holding (roots : SourceRoots) (path : Path) : List Path := roots.filter path.startsWith

/-- The deepest of a list of paths, and of several equally deep ones the last. -/
def deepest : List Path → Option Path
  | [] => none
  | path :: rest =>
    match deepest rest with
    | some other => if path.depth ≤ other.depth then some other else some path
    | none => some path

/-- The deepest root that holds a path. -/
def enclosing (roots : SourceRoots) (path : Path) : Option Path := deepest (roots.holding path)

end SourceRoots

end DiagnosticServer
