import DiagnosticServer.Proofs.Java.CompilationUnit
import DiagnosticServer.Proofs.Layout.Agreement
import DiagnosticServer.Proofs.Text.Octets

/-!
# How a package name is spelled

To the grammar the name of a package is a row of tokens: identifiers, dots between them, and perhaps
comments. Blanks between tokens are no tokens. The declared package is read off the text of the
whole name, by leaving out its blanks, so it is what the tokens spell one after the other
(`packageDeclaration_eq`). Blanks thus make no difference, but comments do: they stay in the
package. A package is glued from its identifiers exactly if there is no comment in its name, and two
files that declare the same identifiers are judged alike exactly if their names are spelled alike
but for blanks (`judged_alike_iff_no_comment`).
-/

namespace DiagnosticServer

/-! ## Tokens in a text -/

namespace Text

/-- Whether a text has nothing but blanks between two byte offsets. -/
def isGap (text : List Char) (start stop : Nat) : Bool :=
  (slice text start stop).any fun piece => piece.all isBlank

/-- The blanks of a text are those of its parts. -/
theorem dropBlanks_append (text more : List Char) :
    dropBlanks (text ++ more) = dropBlanks text ++ dropBlanks more :=
  List.filter_append text more

/-- A text without blanks loses nothing. -/
theorem dropBlanks_of_solid {text : List Char} (solid : ∀ c ∈ text, isBlank c = false) :
    dropBlanks text = text := by
  refine List.filter_eq_self.2 fun c among => ?_
  rw [solid c among]
  rfl

/-- A gap is a piece of the text of which nothing is left without blanks. -/
theorem exists_blanks_of_isGap {text : List Char} {start stop : Nat}
    (gap : isGap text start stop = true) :
    ∃ blanks, slice text start stop = some blanks ∧ dropBlanks blanks = [] := by
  obtain ⟨blanks, cut, blank⟩ := (Option.any_eq_true _ _).1 gap
  refine ⟨blanks, cut, List.filter_eq_nil_iff.2 fun c among => ?_⟩
  rw [List.all_eq_true.1 blank c among]
  exact Bool.false_ne_true

end Text

namespace Label

/-- Whether a token is a comment. -/
def isComment (token : Label) : Bool :=
  token.kind == "line_comment" || token.kind == "block_comment"

/-- What a token spells, without the blanks that a comment may have. -/
def solidSpelling (text : List Char) (token : Label) : List Char :=
  Text.dropBlanks ((token.spelling text).getD [])

end Label

namespace Tree

mutual

/-- The tokens of a tree in the order of the text: the nodes with nothing below them. -/
def leaves : Tree → List Label
  | node label [] => [label]
  | node _ (first :: rest) => leaves first ++ leavesAmong rest

/-- The tokens of neighbouring trees. -/
def leavesAmong : List Tree → List Label
  | [] => []
  | tree :: rest => leaves tree ++ leavesAmong rest

end

end Tree

/-- A text consists of tokens from one byte offset to another, with nothing but blanks around
them. -/
def IsTokenized (text : List Char) : (start stop : Nat) → List Label → Prop
  | start, stop, [] => Text.isGap text start stop = true
  | start, stop, token :: rest =>
    Text.isGap text start token.startByte = true ∧ (token.spelling text).isSome = true ∧
      IsTokenized text token.stopByte stop rest

instance (text : List Char) : (start stop : Nat) → (tokens : List Label) →
    Decidable (IsTokenized text start stop tokens)
  | start, stop, [] => inferInstanceAs (Decidable (Text.isGap text start stop = true))
  | start, stop, token :: rest =>
    have := instDecidableIsTokenized text token.stopByte stop rest
    inferInstanceAs (Decidable (Text.isGap text start token.startByte = true ∧
      (token.spelling text).isSome = true ∧ IsTokenized text token.stopByte stop rest))

/-- Without its blanks a text is what its tokens spell. -/
theorem IsTokenized.exists_slice {text : List Char} {start stop : Nat} {tokens : List Label}
    (tokenized : IsTokenized text start stop tokens) :
    ∃ piece, Text.slice text start stop = some piece ∧
      Text.dropBlanks piece = tokens.flatMap (Label.solidSpelling text) := by
  induction tokens generalizing start with
  | nil => exact Text.exists_blanks_of_isGap tokenized
  | cons token rest ih =>
    obtain ⟨gap, spelled, later⟩ := tokenized
    obtain ⟨blanks, before, empty⟩ := Text.exists_blanks_of_isGap gap
    obtain ⟨word, here⟩ := Option.isSome_iff_exists.1 spelled
    obtain ⟨piece, behind, solid⟩ := ih later
    -- The gap, the token and what follows it meet.
    have whole := Text.slice_append before (Text.slice_append here behind)
    refine ⟨_, whole, ?_⟩
    calc Text.dropBlanks (blanks ++ (word ++ piece))
        = Text.dropBlanks word ++ Text.dropBlanks piece := by
          rw [Text.dropBlanks_append, Text.dropBlanks_append, empty, List.nil_append]
      _ = token.solidSpelling text ++ rest.flatMap (Label.solidSpelling text) := by
          rw [solid, Label.solidSpelling, here, Option.getD_some]
      _ = (token :: rest).flatMap (Label.solidSpelling text) := List.flatMap_cons.symm

namespace Java

open Layout

variable {text : List Char} {tree name name' : Tree} {identifiers : List String}

/-! ## Names of packages -/

/-- The node that spells the declared package, if there is one. -/
def packageNode? (tree : Tree) : Option Tree := do
  let declaration ← tree.findNamed (· == "package_declaration")
  declaration.findNamed fun kind => kind == "identifier" || kind == "scoped_identifier"

/-- Tokens are identifiers with dots between them. -/
inductive IsDotted (text : List Char) : List Label → List String → Prop where
  /-- There is one identifier. -/
  | single {token : Label} {identifier : String}
      (spelled : token.spelling text = some identifier.toList) :
      IsDotted text [token] [identifier]
  /-- The first identifier has a dot and others behind it. -/
  | more {token dot : Label} {rest : List Label} {identifier : String} {others : List String}
      (spelled : token.spelling text = some identifier.toList)
      (dotted : dot.spelling text = some ['.']) (later : IsDotted text rest others) :
      IsDotted text (token :: dot :: rest) (identifier :: others)

/-- A node spells identifiers with dots between them, with any blanks and comments in between. -/
structure IsNameOf (text : List Char) (identifiers : List String) (name : Tree) : Prop where
  /-- The node consists of its tokens. -/
  tokenized : IsTokenized text name.label.startByte name.label.stopByte name.leaves
  /-- But for comments they are the identifiers with dots between them. -/
  dotted : IsDotted text (name.leaves.filter fun token => !token.isComment) identifiers
  /-- No identifier has a character that stands for something else in a package or a path. -/
  proper : ∀ identifier ∈ identifiers, IsIdentifier identifier
  /-- A comment starts with a slash. -/
  slashed : ∀ token ∈ name.leaves, token.isComment = true →
    (token.spelling text).bind List.head? = some '/'

/-- The declared package is what the tokens of its name spell. -/
theorem packageDeclaration_eq (found : packageNode? tree = some name)
    (named : IsNameOf text identifiers name) :
    packageDeclaration text tree =
      some (String.ofList (name.leaves.flatMap (Label.solidSpelling text)), name.label) := by
  obtain ⟨declaration, declares, names⟩ := Option.bind_eq_some_iff.1 found
  obtain ⟨piece, cut, solid⟩ := named.tokenized.exists_slice
  have spelled : name.label.spelling text = some piece := cut
  unfold packageDeclaration
  simp only [declares, names, spelled, solid, Option.bind_eq_bind, Option.bind_some,
    Option.pure_def]

/-- Identifiers with dots between them are glued to their package. -/
theorem IsDotted.flatMap_eq {tokens : List Label} (dotted : IsDotted text tokens identifiers)
    (proper : ∀ identifier ∈ identifiers, IsIdentifier identifier) :
    tokens.flatMap (Label.solidSpelling text) = (packageOf identifiers).toList := by
  unfold packageOf
  rw [String.toList_ofList]
  have solid : ∀ {token : Label} {identifier : String}, IsIdentifier identifier →
      token.spelling text = some identifier.toList →
        token.solidSpelling text = identifier.toList := fun {token identifier} proper spelled => by
    unfold Label.solidSpelling
    rw [spelled]
    exact Text.dropBlanks_of_solid fun c among => (proper.2 c among).2.2
  induction dotted with
  | single spelled =>
    have first := solid (proper _ List.mem_cons_self) spelled
    rw [List.flatMap_cons, first, List.map_singleton, List.intercalate_singleton]
    exact List.append_nil _
  | @more token dot rest identifier others spelled dotted later ih =>
    have first := solid (proper _ List.mem_cons_self) spelled
    have between : dot.solidSpelling text = ['.'] := by
      unfold Label.solidSpelling
      rw [dotted]
      rfl
    have filled : others.map String.toList ≠ [] := by
      cases later <;> exact List.cons_ne_nil _ _
    rw [List.flatMap_cons, List.flatMap_cons, first, between,
      ih fun identifier among => proper identifier (List.mem_cons_of_mem _ among),
      List.map_cons, Text.intercalate_cons _ filled]
    rfl

/-- The tokens of a name are glued to the package of its identifiers exactly if there is no comment
among them. -/
theorem IsNameOf.flatMap_eq_iff (named : IsNameOf text identifiers name) :
    name.leaves.flatMap (Label.solidSpelling text) = (packageOf identifiers).toList ↔
      ∀ token ∈ name.leaves, token.isComment = false := by
  constructor
  · intro glued token among
    by_contra comment
    have slashed := named.slashed token among (by simpa using comment)
    obtain ⟨word, spelled, first⟩ := Option.bind_eq_some_iff.1 slashed
    -- The slash of a comment would be in the package.
    have slash : '/' ∈ token.solidSpelling text := by
      unfold Label.solidSpelling
      rw [spelled]
      exact List.mem_filter.2 ⟨List.mem_of_mem_head? first, rfl⟩
    have inside : '/' ∈ name.leaves.flatMap (Label.solidSpelling text) :=
      List.mem_flatMap.2 ⟨token, among, slash⟩
    rw [glued] at inside
    exact slash_not_mem_packageOf named.proper inside
  · intro bare
    have all : (name.leaves.filter fun token => !token.isComment) = name.leaves :=
      List.filter_eq_self.2 fun token among => by rw [bare token among]; rfl
    have dotted := named.dotted
    rw [all] at dotted
    exact dotted.flatMap_eq named.proper

/-! ## Verdicts -/

/-- Two verdicts say the same of package, source roots and what is wrong; where it is wrong may
differ. -/
def SayTheSame : Verdict CompilationUnit → Verdict CompilationUnit → Prop
  | .accepted unit roots, .accepted unit' roots' => unit.package = unit'.package ∧ roots = roots'
  | .rejected problems, .rejected problems' =>
    problems.map Problem.message = problems'.map Problem.message
  | _, _ => False

/-- Two files that follow the grammar and declare a package each are judged alike wherever they lie,
exactly if the packages are the same. -/
theorem sayTheSame_iff {grammar : Grammar} {text other : String} {package package' : String}
    {label label' : Label} (sound : (grammar text).label.hasError = false)
    (sound' : (grammar other).label.hasError = false)
    (declares : packageDeclaration text.toList (grammar text) = some (package, label))
    (declares' : packageDeclaration other.toList (grammar other) = some (package', label')) :
    (∀ path roots, SayTheSame (parser grammar path text roots) (parser grammar path other roots)) ↔
      package = package' := by
  constructor
  · intro alike
    -- Where no root is known both are accepted.
    have unheld : ∀ declared, mismatch? [] ⟨""⟩ declared = none := fun declared =>
      mismatch?_eq_none nofun
    have here := alike ⟨""⟩ []
    rw [parser_eq_accepted sound declares (unheld package),
      parser_eq_accepted sound' declares' (unheld package')] at here
    exact Option.some.inj here.1
  · rintro rfl path roots
    cases judged : mismatch? roots path package with
    | some expected =>
      rw [parser_eq_rejected sound declares judged, parser_eq_rejected sound' declares' judged]
      rfl
    | none =>
      rw [parser_eq_accepted sound declares judged, parser_eq_accepted sound' declares' judged]
      exact ⟨rfl, rfl⟩

/-- Let two texts follow the grammar, and let the names of their packages spell the same identifiers
with dots between them, with any blanks and comments in between. The declared package is glued from
the identifiers if and only if there is no comment in its name, whatever blanks there are. The two
files are judged alike, wherever they lie and whatever roots are known, if and only if the tokens of
the names, comments included, spell the same but for blanks; so if there is no comment in one of the
names, if and only if there is none in the other. -/
theorem judged_alike_iff_no_comment {grammar : Grammar} {text other : String}
    (sound : (grammar text).label.hasError = false)
    (sound' : (grammar other).label.hasError = false)
    (found : packageNode? (grammar text) = some name)
    (found' : packageNode? (grammar other) = some name')
    (named : IsNameOf text.toList identifiers name)
    (named' : IsNameOf other.toList identifiers name') :
    (packageDeclaration text.toList (grammar text) = some (packageOf identifiers, name.label) ↔
      ∀ token ∈ name.leaves, token.isComment = false) ∧
    ((∀ path roots, SayTheSame (parser grammar path text roots) (parser grammar path other roots)) ↔
      name.leaves.flatMap (Label.solidSpelling text.toList) =
        name'.leaves.flatMap (Label.solidSpelling other.toList)) ∧
    ((∀ token ∈ name'.leaves, token.isComment = false) →
      ((∀ path roots,
          SayTheSame (parser grammar path text roots) (parser grammar path other roots)) ↔
        ∀ token ∈ name.leaves, token.isComment = false)) := by
  have declares := packageDeclaration_eq found named
  have declares' := packageDeclaration_eq found' named'
  have alike := sayTheSame_iff sound sound' declares declares'
  rw [String.ofList_inj] at alike
  refine ⟨?_, alike, fun bare => ?_⟩
  · rw [declares, ← named.flatMap_eq_iff, Option.some.injEq, Prod.mk.injEq, and_iff_left rfl,
      ← String.toList_inj, String.toList_ofList]
  · rw [alike, named'.flatMap_eq_iff.2 bare, named.flatMap_eq_iff]

namespace Spellings

/-- A package without blanks and comments in its name. -/
def plain : String := "package a.b;"

/-- The same package with blanks in its name. -/
def spaced : String := "package a\t.  b;"

/-- The same package with a comment in its name. -/
def commented : String := "package a./*c*/b;"

/-- A node on the first line of a text, with the offsets of its two ends. -/
def mark (kind : String) (isNamed : Bool) (start stop : Nat) : Label :=
  ⟨kind, isNamed, false, false, false, start, stop, ⟨0, start⟩, ⟨0, stop⟩⟩

/-- The tokens of the names. -/
def tokens (text : String) : List Label :=
  if text = commented then
    [mark "identifier" true 8 9, mark "." false 9 10, mark "block_comment" true 10 15,
      mark "identifier" true 15 16]
  else if text = spaced then
    [mark "identifier" true 8 9, mark "." false 10 11, mark "identifier" true 13 14]
  else [mark "identifier" true 8 9, mark "." false 9 10, mark "identifier" true 10 11]

/-- The node of the name in each text. -/
def nameIn (text : String) : Tree :=
  .node (mark "scoped_identifier" true 8 (text.length - 1)) ((tokens text).map (.node · []))

/-- A grammar for the three texts. -/
def grammar : Grammar := fun text =>
  .node (mark "program" true 0 text.length)
    [.node (mark "package_declaration" true 0 text.length)
      [.node (mark "package" false 0 7) [], nameIn text,
        .node (mark ";" false (text.length - 1) text.length) []]]

/-- The first text names its package by the two identifiers. -/
theorem plain_named : IsNameOf plain.toList ["a", "b"] (nameIn plain) where
  tokenized := by decide
  dotted := .more (by decide) (by decide) (.single (by decide))
  proper := by decide
  slashed := by decide

end Spellings

open Spellings in
/-- A tab and spaces around the dot make no difference. -/
theorem spaced_package_judged_alike :
    (grammar spaced).label.hasError = false ∧ (grammar plain).label.hasError = false ∧
    packageNode? (grammar spaced) = some (nameIn spaced) ∧
    packageNode? (grammar plain) = some (nameIn plain) ∧
    IsNameOf spaced.toList ["a", "b"] (nameIn spaced) ∧
    IsNameOf plain.toList ["a", "b"] (nameIn plain) ∧
    packageDeclaration spaced.toList (grammar spaced) =
      some (packageOf ["a", "b"], (nameIn spaced).label) ∧
    ∀ path roots,
      SayTheSame (parser grammar path spaced roots) (parser grammar path plain roots) := by
  have named : IsNameOf spaced.toList ["a", "b"] (nameIn spaced) :=
    { tokenized := by decide
      dotted := .more (by decide) (by decide) (.single (by decide))
      proper := by decide
      slashed := by decide }
  have bare : ∀ token ∈ (nameIn spaced).leaves, token.isComment = false := by decide
  have bare' : ∀ token ∈ (nameIn plain).leaves, token.isComment = false := by decide
  have sound : (grammar spaced).label.hasError = false := rfl
  have sound' : (grammar plain).label.hasError = false := rfl
  have found : packageNode? (grammar spaced) = some (nameIn spaced) := rfl
  have found' : packageNode? (grammar plain) = some (nameIn plain) := rfl
  obtain ⟨glued, -, alike⟩ :=
    judged_alike_iff_no_comment sound sound' found found' named plain_named
  exact ⟨sound, sound', found, found', named, plain_named, glued.2 bare, (alike bare').2 bare⟩

open Spellings in
/-- A comment behind the dot becomes part of the package. In the directory `/p/a/b`, where `/p` is a
known root, the file is rejected, but it would be accepted without the comment. -/
theorem comment_becomes_part_of_package :
    (grammar commented).label.hasError = false ∧
    packageNode? (grammar commented) = some (nameIn commented) ∧
    IsNameOf commented.toList ["a", "b"] (nameIn commented) ∧
    packageDeclaration commented.toList (grammar commented) =
      some ("a./*c*/b", (nameIn commented).label) ∧
    packageOf ["a", "b"] = "a.b" ∧
    IsNameOf plain.toList ["a", "b"] (nameIn plain) ∧
    parser grammar ⟨"/p/a/b/A.java"⟩ plain [⟨"/p"⟩] =
      .accepted ⟨grammar plain, some "a.b"⟩ [⟨"/p"⟩] ∧
    parser grammar ⟨"/p/a/b/A.java"⟩ commented [⟨"/p"⟩] =
      .rejected [wrongPackage commented.toList (nameIn commented).label "a./*c*/b" "a.b"] := by
  have named : IsNameOf commented.toList ["a", "b"] (nameIn commented) :=
    { tokenized := by decide
      dotted := .more (by decide) (by decide) (.single (by decide))
      proper := by decide
      slashed := by decide }
  have declares : packageDeclaration commented.toList (grammar commented) =
      some ("a./*c*/b", (nameIn commented).label) := by decide
  have declares' : packageDeclaration plain.toList (grammar plain) =
      some ("a.b", (nameIn plain).label) := by decide
  have wrong : mismatch? [⟨"/p"⟩] ⟨"/p/a/b/A.java"⟩ "a./*c*/b" = some "a.b" := by decide +kernel
  have right : mismatch? [⟨"/p"⟩] ⟨"/p/a/b/A.java"⟩ "a.b" = none := by decide +kernel
  have reveals : sourceRoot? ⟨"/p/a/b/A.java"⟩ "a.b" = some ⟨"/p"⟩ := by decide +kernel
  refine ⟨rfl, rfl, named, declares, by decide, plain_named, ?_, ?_⟩
  · rw [parser_eq_accepted rfl declares' right, reveals]
    rfl
  · exact parser_eq_rejected rfl declares wrong

end Java

end DiagnosticServer
