import DiagnosticServer.Path.Normal
import DiagnosticServer.Proofs.Layout.Packages

/-!
# Where the two readings of the layout agree

The root that a file reveals is found by splitting its package into segments and comparing their
octets with the names of directories. The package that a root expects is glued from those names as
they are shown. The readings come apart in two ways. Splitting undoes gluing only if no name has a
dot: a file in the directory `a.b` of a root is expected to declare `a.b`, as if it lay in `a/b`,
but declaring it reveals no root. And what is shown has the octets of the name only if the name is a
text: a file in a directory whose name is the octet 255 is expected to declare the package of the
character that is shown in its place. There is no third way
(`root_revealed_iff_expected_without_dots`).
-/

namespace DiagnosticServer.Layout

variable {file root : Path} {identifiers : List String} {names : List Octets}

/-- Whether a text can be a segment of a package: it is not empty, and has no dot, no separator of
paths, and no blank. -/
def IsIdentifier (text : String) : Prop :=
  text.toList ≠ [] ∧ ∀ c ∈ text.toList, c ≠ '.' ∧ c ≠ '/' ∧ Text.isBlank c = false

-- By a search through the text: the characters are finitely many, but too many to go through.
instance (text : String) : Decidable (IsIdentifier text) :=
  @instDecidableAnd _ _ inferInstance (List.decidableBAll _ _)

/-- The package with given segments. -/
def packageOf (segments : List String) : String :=
  String.ofList (['.'].intercalate (segments.map String.toList))

/-- Whether a file lies in the directory to which names lead from a root. -/
def LiesBelow (file root : Path) (names : List Octets) : Prop :=
  ∃ directory, file.parent = some directory ∧
    directory.components = root.components ++ names.map .name

/-! ## Segments -/

/-- No segment has a dot. -/
theorem IsIdentifier.dot_not_mem {text : String} (proper : IsIdentifier text) :
    '.' ∉ text.toList :=
  fun among => (proper.2 '.' among).1 rfl

/-- A segment has no separator of paths. -/
theorem IsIdentifier.slash_not_mem {text : String} (proper : IsIdentifier text) :
    '/' ∉ text.toList :=
  fun among => (proper.2 '/' among).2.1 rfl

/-- Segments can be the names of directories. -/
theorem isName_of_mem_identifiers (proper : ∀ i ∈ identifiers, IsIdentifier i) :
    ∀ name ∈ identifiers.map Octets.ofText, isName name = true :=
  List.forall_mem_map.2 fun i among =>
    isName_ofText (proper i among).1 (proper i among).dot_not_mem (proper i among).slash_not_mem

/-- Texts without dots are read back from the package that they are glued to. -/
theorem splitOn_packageOf {texts : List String} (filled : texts ≠ [])
    (undotted : ∀ text ∈ texts, '.' ∉ text.toList) :
    (packageOf texts).toList.splitOn '.' = texts.map String.toList := by
  rw [packageOf, String.toList_ofList]
  exact List.splitOn_intercalate '.' (List.forall_mem_map.2 undotted) (by simpa using filled)

/-- The segments of a package are those it was made of. -/
theorem segments_packageOf (filled : identifiers ≠ [])
    (proper : ∀ i ∈ identifiers, IsIdentifier i) :
    segments (packageOf identifiers) = identifiers := by
  rw [segments, splitOn_packageOf filled fun i among => (proper i among).dot_not_mem, List.map_map]
  refine (List.map_congr_left fun i among => ?_).trans (List.map_id identifiers)
  have solid : ∀ c ∈ i.toList, Text.isBlank c = false := fun c inside =>
    ((proper i among).2 c inside).2.2
  rw [Function.comp_apply, Text.trim_of_solid solid, String.ofList_toList, id]

/-- A package with segments is not empty. -/
theorem toList_packageOf_ne_nil (filled : identifiers ≠ [])
    (proper : ∀ i ∈ identifiers, IsIdentifier i) : (packageOf identifiers).toList ≠ [] := by
  intro empty
  have cut := splitOn_packageOf filled fun i among => (proper i among).dot_not_mem
  obtain ⟨first, rest, rfl⟩ := List.exists_cons_of_ne_nil filled
  rw [empty] at cut
  exact (proper first List.mem_cons_self).1 (List.cons.inj cut).1.symm

/-- A package has no separator of paths. -/
theorem slash_not_mem_packageOf (proper : ∀ i ∈ identifiers, IsIdentifier i) :
    '/' ∉ (packageOf identifiers).toList := by
  intro slash
  rw [packageOf, String.toList_ofList] at slash
  rcases Text.mem_of_mem_intercalate slash with dot | ⟨piece, among, inside⟩
  · cases dot
  · obtain ⟨i, member, rfl⟩ := List.mem_map.1 among
    exact (proper i member).slash_not_mem inside

/-! ## The root that a file reveals -/

/-- A file lies in the directory to which names lead from a root exactly if its components are those
of the root, the names, and one more. -/
theorem liesBelow_iff : LiesBelow file root names ↔ ∃ last, last ≠ .root ∧
    file.components = root.components ++ names.map .name ++ [last] := by
  constructor
  · rintro ⟨directory, up, split⟩
    obtain ⟨last, parted, inner⟩ := Path.components_of_parent up
    exact ⟨last, inner, by rw [parted, split]⟩
  · rintro ⟨last, inner, split⟩
    exact Path.parent_of_components split inner

/-- No name is the root. -/
theorem root_not_mem_map_name (names : List Octets) :
    Path.Component.root ∉ names.map Path.Component.name := by
  simp

/-- By declaring a package a file reveals exactly the root below which it lies in the directory that
the segments lead to. -/
theorem reveals_iff (filled : identifiers ≠ []) (proper : ∀ i ∈ identifiers, IsIdentifier i) :
    (∃ revealed, sourceRoot? file (packageOf identifiers) = some revealed ∧
        revealed.same root = true) ↔ LiesBelow file root (identifiers.map Octets.ofText) := by
  have cut := segments_packageOf filled proper
  constructor
  · rintro ⟨revealed, reveals, same⟩
    obtain ⟨last, inner, split⟩ :=
      components_of_sourceRoot? (slash_not_mem_packageOf proper) reveals
    rw [cut, show revealed.components = root.components from eq_of_beq same] at split
    exact liesBelow_iff.2 ⟨last, inner, split⟩
  · rintro ⟨directory, up, split⟩
    obtain ⟨revealed, above, same⟩ :=
      Path.ancestor_of_components split (root_not_mem_map_name _)
    rw [List.length_map, List.length_map] at above
    have whole : identifiers.any String.isEmpty = false := List.any_eq_false.2 fun i among => by
      simpa using (proper i among).1
    have fits : directory.endsWith (Path.ofNames (identifiers.map Octets.ofText)) = true := by
      rw [Path.endsWith, List.isSuffixOf_iff_suffix, split,
        Path.components_ofNames (isName_of_mem_identifiers proper)]
      exact List.suffix_append _ _
    refine ⟨revealed, ?_, beq_iff_eq.2 same⟩
    simp only [sourceRoot?, up, cut, whole, fits, Option.bind_eq_bind, Option.bind_some,
      Bool.false_eq_true, if_false, if_true, above]

/-! ## The package that a root expects -/

/-- What a root expects is glued from the components between it and the directory of the file, as
they are shown. -/
theorem expectedPackage?_eq_some_iff {package : String} :
    expectedPackage? root file = some package ↔ ∃ directory below,
      file.parent = some directory ∧ directory.components = root.components ++ below ∧
        package.toList = ['.'].intercalate (below.map fun c => Text.decodeLossy c.octets) := by
  simp only [expectedPackage?, Path.below?, Option.bind_eq_bind, Option.bind_eq_some_iff,
    Option.pure_def, Option.some.injEq, Option.ite_none_right_eq_some]
  constructor
  · rintro ⟨directory, up, below, ⟨inside, rfl⟩, rfl⟩
    obtain ⟨rest, split⟩ := List.isPrefixOf_iff_prefix.1 inside
    refine ⟨directory, rest, up, split.symm, ?_⟩
    rw [String.toList_ofList, ← split, List.drop_left]
  · rintro ⟨directory, below, up, split, glued⟩
    refine ⟨directory, up, below, ⟨?_, ?_⟩, ?_⟩
    · rw [Path.startsWith, List.isPrefixOf_iff_prefix, split]
      exact List.prefix_append _ _
    · rw [split, List.drop_left]
    · rw [← glued, String.ofList_toList]

/-- A component that is shown as segments with dots between them is a name. -/
theorem exists_name {c : Path.Component}
    (pieces : ∀ piece ∈ (Text.decodeLossy c.octets).splitOn '.',
      IsIdentifier (String.ofList piece)) :
    ∃ name, c = .name name := by
  cases c with
  | root => exact absurd (pieces ['/'] (by decide +kernel)) (by decide +kernel)
  | current => exact absurd (pieces [] (by decide +kernel)) (by decide +kernel)
  | parent => exact absurd (pieces [] (by decide +kernel)) (by decide +kernel)
  | name octets => exact ⟨octets, rfl⟩

/-- Components that are all names are the components of some names. -/
theorem exists_names {below : List Path.Component} (named : ∀ c ∈ below, ∃ name, c = .name name) :
    ∃ names : List Octets, below = names.map .name := by
  induction below with
  | nil => exact ⟨[], rfl⟩
  | cons c rest ih =>
    obtain ⟨⟨name, rfl⟩, later⟩ := List.forall_mem_cons.1 named
    obtain ⟨names, rfl⟩ := ih later
    exact ⟨name :: names, rfl⟩

/-- A root expects a package exactly if the file lies in a directory to which names lead that are
shown as texts that glue to the package, whatever octets and dots the names have. -/
theorem expects_iff (filled : identifiers ≠ []) (proper : ∀ i ∈ identifiers, IsIdentifier i) :
    expectedPackage? root file = some (packageOf identifiers) ↔
      ∃ names, LiesBelow file root names ∧
        packageOf (names.map Octets.text) = packageOf identifiers := by
  have shown (names : List Octets) : (packageOf (names.map Octets.text)).toList =
      ['.'].intercalate ((names.map Path.Component.name).map fun c =>
        Text.decodeLossy c.octets) := by
    simp only [packageOf, String.toList_ofList, List.map_map, Function.comp_def, Octets.text,
      Path.Component.octets]
  rw [expectedPackage?_eq_some_iff]
  constructor
  · rintro ⟨directory, below, up, split, glued⟩
    have cut := splitOn_packageOf filled fun i among => (proper i among).dot_not_mem
    -- Each component between root and file is split into segments of the package.
    have deep : below ≠ [] := by
      rintro rfl
      exact toList_packageOf_ne_nil filled proper glued
    rw [glued, Text.splitOn_intercalate_eq_flatMap (by simpa using deep)] at cut
    have named : ∀ c ∈ below, ∃ name, c = .name name := by
      intro c among
      refine exists_name fun piece inside => ?_
      have segment : piece ∈ identifiers.map String.toList :=
        cut ▸ List.mem_flatMap.2 ⟨_, List.mem_map_of_mem among, inside⟩
      obtain ⟨i, member, rfl⟩ := List.mem_map.1 segment
      rw [String.ofList_toList]
      exact proper i member
    obtain ⟨names, rfl⟩ := exists_names named
    exact ⟨names, ⟨directory, up, split⟩, String.toList_inj.1 ((shown names).trans glued.symm)⟩
  · rintro ⟨names, ⟨directory, up, split⟩, glued⟩
    exact ⟨directory, names.map .name, up, split, by rw [← glued, shown]⟩

/-- The names that lead from a root to the directory of a file are determined by the two. -/
theorem LiesBelow.unique {other : List Octets} (lies : LiesBelow file root names)
    (also : LiesBelow file root other) : names = other := by
  obtain ⟨directory, up, split⟩ := lies
  obtain ⟨_, up', split'⟩ := also
  cases up.symm.trans up'
  have alike := List.append_cancel_left (split.symm.trans split')
  exact List.map_injective_iff.2 (fun _ _ h => Path.Component.name.inj h) alike

/-- Names without dots that are texts are known by the package that they are shown to be glued
to. -/
theorem eq_map_ofText_of_packageOf (filled : identifiers ≠ [])
    (proper : ∀ i ∈ identifiers, IsIdentifier i)
    (clean : ∀ name ∈ names, dot ∉ name ∧ name.IsText)
    (glued : packageOf (names.map Octets.text) = packageOf identifiers) :
    names = identifiers.map Octets.ofText := by
  have undotted : ∀ text ∈ names.map Octets.text, '.' ∉ text.toList := by
    refine List.forall_mem_map.2 fun name among inside => ?_
    obtain ⟨dotless, same⟩ := clean name among
    rw [Octets.IsText] at same
    exact dotless (same ▸ (Text.mem_encode_iff (a := '.') (by decide)).2 inside)
  have deep : names.map Octets.text ≠ [] := by
    intro empty
    rw [empty] at glued
    exact toList_packageOf_ne_nil filled proper (glued ▸ rfl)
  have cut := splitOn_packageOf deep undotted
  rw [glued, splitOn_packageOf filled fun i among => (proper i among).dot_not_mem] at cut
  have same : identifiers = names.map Octets.text :=
    List.map_injective_iff.2 (fun _ _ h => String.toList_inj.1 h) cut
  rw [same, List.map_map]
  exact ((List.map_congr_left fun name among => (clean name among).2).trans (List.map_id _)).symm

/-- Let a package have any segments without dots, separators of paths and blanks. A file that
declares it reveals a root exactly if it lies in the directory to which the segments lead from the
root. The root expects the package of the file exactly if it lies in a directory to which names lead
that are shown as texts that glue to the package. So the root is revealed if and only if it expects
the package and every directory between it and the file has a name without a dot that is a text. -/
theorem root_revealed_iff_expected_without_dots (filled : identifiers ≠ [])
    (proper : ∀ i ∈ identifiers, IsIdentifier i) (file root : Path) :
    ((∃ revealed, sourceRoot? file (packageOf identifiers) = some revealed ∧
        revealed.same root = true) ↔ LiesBelow file root (identifiers.map Octets.ofText)) ∧
    (expectedPackage? root file = some (packageOf identifiers) ↔
      ∃ names, LiesBelow file root names ∧
        packageOf (names.map Octets.text) = packageOf identifiers) ∧
    ((∃ revealed, sourceRoot? file (packageOf identifiers) = some revealed ∧
        revealed.same root = true) ↔
      expectedPackage? root file = some (packageOf identifiers) ∧
        ∀ names, LiesBelow file root names → ∀ name ∈ names, dot ∉ name ∧ name.IsText) := by
  refine ⟨reveals_iff filled proper, expects_iff filled proper, ?_⟩
  rw [reveals_iff filled proper, expects_iff filled proper]
  constructor
  · intro lies
    refine ⟨⟨_, lies, ?_⟩, fun names also name among => ?_⟩
    · simp [Function.comp_def]
    · rw [also.unique lies] at among
      obtain ⟨i, member, rfl⟩ := List.mem_map.1 among
      exact ⟨fun inside => (proper i member).dot_not_mem
          ((Text.mem_encode_iff (a := '.') (by decide)).1 inside), Octets.isText_iff.2 ⟨i, rfl⟩⟩
  · rintro ⟨⟨names, lies, glued⟩, clean⟩
    rwa [← eq_map_ofText_of_packageOf filled proper (clean names lies) glued]

/-- A file in a directory whose name is the octet 255. -/
def unspoken : Path := .ofOctets (Octets.ofText "/src/" ++ 0xFF :: Octets.ofText "/A.java")

-- The directory is shown as the replacement character, which is an identifier but not its name.
example : (∀ i ∈ ["\uFFFD"], IsIdentifier i) ∧
    expectedPackage? ⟨"/src"⟩ unspoken = some "\uFFFD" ∧ sourceRoot? unspoken "\uFFFD" = none := by
  decide +kernel

/-- A root that is spelled with separators at its end is revealed by a file two directories below,
and expects its package. -/
theorem root_revealed_two_directories_below :
    ["org", "example"] ≠ [] ∧ (∀ i ∈ ["org", "example"], IsIdentifier i) ∧
    packageOf ["org", "example"] = "org.example" ∧
    LiesBelow ⟨"/src/org/example/App.java"⟩ ⟨"/src//"⟩ (["org", "example"].map Octets.ofText) ∧
    (∃ revealed, sourceRoot? ⟨"/src/org/example/App.java"⟩ (packageOf ["org", "example"]) =
      some revealed ∧ revealed.same ⟨"/src//"⟩ = true) ∧
    expectedPackage? ⟨"/src//"⟩ ⟨"/src/org/example/App.java"⟩ =
      some (packageOf ["org", "example"]) := by
  have proper : ∀ i ∈ ["org", "example"], IsIdentifier i := by decide
  have lies : LiesBelow ⟨"/src/org/example/App.java"⟩ ⟨"/src//"⟩
      (["org", "example"].map Octets.ofText) :=
    ⟨⟨"/src/org/example"⟩, by decide +kernel, by decide +kernel⟩
  obtain ⟨reveals, -, agree⟩ := root_revealed_iff_expected_without_dots (List.cons_ne_nil _ _)
    proper ⟨"/src/org/example/App.java"⟩ ⟨"/src//"⟩
  have revealed := reveals.2 lies
  exact ⟨List.cons_ne_nil _ _, proper, by decide +kernel, lies, revealed, (agree.1 revealed).1⟩

/-- A root expects the package `a.b` of a file in its directory `a.b`, but the file does not reveal
the root by declaring it. -/
theorem dotted_directory_expected_not_revealed :
    Path.isAbsolute ⟨"/src/a.b/A.java"⟩ = true ∧
    Path.normalize ⟨"/src/a.b/A.java"⟩ = ⟨"/src/a.b/A.java"⟩ ∧
    (∀ i ∈ ["a", "b"], IsIdentifier i) ∧ packageOf ["a", "b"] = "a.b" ∧
    expectedPackage? ⟨"/src"⟩ ⟨"/src/a.b/A.java"⟩ = some "a.b" ∧
    ¬ ∃ revealed, sourceRoot? ⟨"/src/a.b/A.java"⟩ "a.b" = some revealed ∧
      revealed.same ⟨"/src"⟩ = true := by
  have hidden : sourceRoot? ⟨"/src/a.b/A.java"⟩ "a.b" = none := by decide +kernel
  refine ⟨by decide +kernel, by decide +kernel, by decide, by decide +kernel, by decide +kernel, ?_⟩
  rintro ⟨revealed, reveals, -⟩
  cases hidden.symm.trans reveals

end DiagnosticServer.Layout
