import DiagnosticServer.Layout
import DiagnosticServer.Parse.Outcome
import DiagnosticServer.Text.Quoted
import DiagnosticServer.Tree.Faults

/-!
# Java compilation units

A Java file is sound if it follows the grammar and lies where its package says. Specifications in
comments are comments to the grammar, so annotated sources are read like plain ones. A sound file
with a package reveals the source root that the package implies.
-/

namespace DiagnosticServer.Java

/-- A grammar: the syntax tree of each text. -/
abbrev Grammar := String → Tree

/-- A sound compilation unit. -/
structure CompilationUnit where
  /-- Its syntax tree. -/
  tree : Tree
  /-- The declared package, if one is declared. -/
  package : Option String

/-- The unit in one line: the kind of its tree and its package. -/
def CompilationUnit.describe (unit : CompilationUnit) : String :=
  let root := Text.quote unit.tree.label.kind
  let package :=
    match unit.package with
    | some name => "Some(" ++ Text.quote name ++ ")"
    | none => "None"
  "JavaSyntaxTree \x7b root: " ++ root ++ ", package: " ++ package ++ " \x7d"

/-- The declared package with the node that spells it. Blanks inside the name do not count. -/
def packageDeclaration (text : List Char) (tree : Tree) : Option (String × Label) := do
  let declaration ← tree.findNamed (· == "package_declaration")
  let name ← declaration.findNamed fun kind => kind == "identifier" || kind == "scoped_identifier"
  let spelled ← name.label.spelling text
  return (String.ofList (Text.dropBlanks spelled), name.label)

/-- The problem of a package that is not the one its place asks for. -/
def wrongPackage (text : List Char) (name : Label) (declared expected : String) : Problem :=
  ⟨some (name.place text),
    s!"The declared package \"{declared}\" does not match the expected package \"{expected}\""⟩

/-- The problem of a missing package declaration. -/
def missingPackage (expected : String) : Problem :=
  ⟨some ⟨⟨1, 1⟩, ⟨1, 1⟩⟩, s!"Missing package declaration, expected package \"{expected}\""⟩

/-- The verdict on a file whose text follows the grammar. -/
def checkPackage (path : Path) (text : List Char) (tree : Tree) (roots : SourceRoots) :
    Verdict CompilationUnit :=
  match packageDeclaration text tree with
  | some (declared, name) =>
    match Layout.mismatch? roots path declared with
    | some expected => .rejected [wrongPackage text name declared expected]
    | none => .accepted ⟨tree, some declared⟩ (Layout.sourceRoot? path declared).toList
  | none =>
    match Layout.mismatch? roots path "" with
    | some expected => .rejected [missingPackage expected]
    | none => .accepted ⟨tree, none⟩ []

/-- The parser of Java files for a grammar. -/
def parser (grammar : Grammar) : Parser CompilationUnit := fun path text roots =>
  let tree := grammar text
  if tree.label.hasError then .rejected (tree.problems text.toList)
  else checkPackage path text.toList tree roots

end DiagnosticServer.Java
