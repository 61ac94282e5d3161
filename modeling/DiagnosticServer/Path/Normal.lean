import DiagnosticServer.Path.Basic

/-!
# The lexical normal form of a path

Normalising reads the components from left to right onto a stack: `.` is skipped, `..` takes a name
off the stack, vanishes at the root, and stays otherwise. Nothing is looked up on a disk, so `..`
after the name of a link goes back to where the link lies and not to where it leads.
-/

namespace DiagnosticServer.Path

/-- The stack after one more component, with the last component on top. -/
def settle (stack : List Component) : Component → List Component
  | .current => stack
  | .parent =>
    match stack with
    | .name _ :: below => below
    | .root :: _ => stack
    | _ => .parent :: stack
  | component => component :: stack

/-- The path without `.`, and without `..` wherever a name or the root comes before it. -/
def normalize (path : Path) : Path :=
  ofComponents (path.components.foldl settle []).reverse

end DiagnosticServer.Path
