import DiagnosticServer.Path.Parent
import DiagnosticServer.SourceRoots
import DiagnosticServer.Text.Blank

/-!
# Where the files of a package lie

A file of the package `a.b` is expected in the directory `a/b` of some source root. From the file
and its package the root can be recovered, and from the file and a root the package. Two ways to say
one rule, they are used against each other: a declared package is checked against the roots that
other files have revealed.
-/

namespace DiagnosticServer.Layout

/-- The segments of a package name, without the blanks around them. -/
def segments (package : String) : List String :=
  (package.toList.splitOn '.').map fun segment => String.ofList (Text.trim segment)

/-- The source root that a file reveals by declaring its package: the ancestor of its directory as
many levels up as the package has segments. There is none if the directory does not end in the
segments, or if a segment is empty. -/
def sourceRoot? (file : Path) (package : String) : Option Path := do
  let directory ← file.parent
  let names := segments package
  if names.any String.isEmpty then none
  else if directory.endsWith (Path.ofNames (names.map Octets.ofText)) then
    directory.ancestor names.length
  else none

/-- The package that a file must declare if `root` is its source root: the names of the directories
between the two as they are shown. It is empty for a file in the root itself. -/
def expectedPackage? (root file : Path) : Option String := do
  let directory ← file.parent
  let below ← directory.below? root
  return String.ofList (['.'].intercalate (below.map fun c => Text.decodeLossy c.octets))

/-- The package that a file should have declared, if none of the roots that hold the file agrees
with what it declared. With the roots ordered from the shallowest to the deepest, the last one
decides. -/
def mismatch? (roots : SourceRoots) (file : Path) (declared : String) : Option String :=
  let holding := roots.holding file
  if holding.any fun root => expectedPackage? root file == some declared then none
  else
    (holding.mergeSort fun a b => a.depth ≤ b.depth).getLast?.bind fun root =>
      expectedPackage? root file

end DiagnosticServer.Layout
