import DiagnosticServer.Layout
import DiagnosticServer.Proofs.Path.Components
import DiagnosticServer.Proofs.Text.Utf8

/-!
# Packages against roots

The root that a file reveals and the package that a root expects are two readings of one split: the
components of the file are those of the root, then the segments of the package, then the name of the
file (`components_of_sourceRoot?`). So a root expects the package by which a file revealed it
(`expectedPackage?_of_sourceRoot?`), however the root is spelled, and no package is found wrong as
long as every root that holds the file expects it (`mismatch?_eq_none`).
-/

namespace DiagnosticServer

namespace Text

/-- Trimming adds no character. -/
theorem mem_of_mem_trim {text : List Char} {c : Char} (h : c ∈ trim text) : c ∈ text := by
  unfold trim at h
  have back := (List.dropWhile_sublist isBlank).subset (List.mem_reverse.1 h)
  exact (List.dropWhile_sublist isBlank).subset (List.mem_reverse.1 back)

/-- A text without blanks has none to be dropped in front. -/
theorem dropWhile_isBlank {text : List Char} (solid : ∀ c ∈ text, isBlank c = false) :
    text.dropWhile isBlank = text := by
  cases text with
  | nil => rfl
  | cons c rest => rw [List.dropWhile_cons, if_neg (by simp [solid c List.mem_cons_self])]

/-- A text without blanks is left alone by trimming. -/
theorem trim_of_solid {text : List Char} (solid : ∀ c ∈ text, isBlank c = false) :
    trim text = text := by
  have backwards : ∀ c ∈ text.reverse, isBlank c = false := fun c among =>
    solid c (List.mem_reverse.1 among)
  rw [trim, dropWhile_isBlank solid, dropWhile_isBlank backwards, List.reverse_reverse]

end Text

namespace Layout

variable {file root : Path} {package : String}

/-! ## Segments -/

/-- A text is a name if it is not empty and has no dot and no separator of paths. -/
theorem isName_ofText {text : String} (filled : text.toList ≠ []) (undotted : '.' ∉ text.toList)
    (plain : '/' ∉ text.toList) : isName (Octets.ofText text) = true := by
  -- Of each octet that names must not have, the character is not in the text.
  have dotless : dot ∉ Octets.ofText text := fun among =>
    undotted ((Text.mem_encode_iff (by decide)).1 among)
  refine isName_iff.2 ⟨fun empty => filled (Text.encode_injective empty), fun single => ?_,
    fun double => ?_, fun among => plain ((Text.mem_encode_iff (by decide)).1 among)⟩
  · exact dotless (single ▸ List.mem_cons_self)
  · exact dotless (double ▸ List.mem_cons_self)

/-- The segments of a package are names, if none is empty and the package has no separator of
paths. -/
theorem isName_of_mem_segments (plain : '/' ∉ package.toList)
    (filled : (segments package).any String.isEmpty = false) :
    ∀ name ∈ (segments package).map Octets.ofText, isName name = true := by
  refine List.forall_mem_map.2 fun segment among => ?_
  have some : segment.toList ≠ [] := by
    have := List.any_eq_false.1 filled segment among
    simpa using this
  obtain ⟨piece, cut, rfl⟩ := List.mem_map.1 among
  have within : ∀ c ∈ (String.ofList (Text.trim piece)).toList, c ∈ piece := by
    rw [String.toList_ofList]
    exact fun c => Text.mem_of_mem_trim
  exact isName_ofText some (fun dot => Text.not_mem_of_mem_splitOn cut (within '.' dot))
    fun slash => plain (Text.mem_of_mem_splitOn cut (within '/' slash))

/-- The segments of a package without blanks, joined by dots, are the package. -/
theorem intercalate_segments (solid : ∀ c ∈ package.toList, Text.isBlank c = false) :
    ['.'].intercalate ((segments package).map String.toList) = package.toList := by
  have untrimmed : (segments package).map String.toList = package.toList.splitOn '.' := by
    unfold segments
    rw [List.map_map]
    conv_rhs => rw [← List.map_id (package.toList.splitOn '.')]
    refine List.map_congr_left fun piece cut => ?_
    rw [Function.comp_apply, String.toList_ofList, id]
    exact Text.trim_of_solid fun c inside => solid c (Text.mem_of_mem_splitOn cut inside)
  rw [untrimmed, List.intercalate_splitOn]

/-! ## Roots -/

/-- A root that a file reveals is an ancestor of its directory, as many levels up as the package has
segments, none of which is empty. -/
theorem sourceRoot?_eq_some (h : sourceRoot? file package = some root) :
    ∃ directory, file.parent = some directory ∧
      (segments package).any String.isEmpty = false ∧
      directory.endsWith (Path.ofNames ((segments package).map Octets.ofText)) = true ∧
      directory.ancestor (segments package).length = some root := by
  obtain ⟨directory, up, rest⟩ := Option.bind_eq_some_iff.1 h
  simp only at rest
  split at rest
  · cases rest
  · rename_i filled
    split at rest
    · rename_i fits
      exact ⟨directory, up, Bool.eq_false_iff.2 filled, fits, rest⟩
    · cases rest

/-- A file and the root it reveals start at the root of the disk together. -/
theorem isAbsolute_sourceRoot? (h : sourceRoot? file package = some root) :
    root.isAbsolute = file.isAbsolute := by
  obtain ⟨directory, up, -, -, above⟩ := sourceRoot?_eq_some h
  obtain ⟨last, split, inner⟩ := Path.components_of_parent up
  obtain ⟨below, parted, -, rootless⟩ := Path.components_ancestor above
  calc root.isAbsolute
      = directory.isAbsolute := Path.isAbsolute_of_components_append parted rootless
    _ = file.isAbsolute := Path.isAbsolute_of_components_append split (by simp [inner.symm])

/-- The components of a file are those of the root it reveals, the segments of its package, and its
name. -/
theorem components_of_sourceRoot? (plain : '/' ∉ package.toList)
    (h : sourceRoot? file package = some root) :
    ∃ last, last ≠ .root ∧ file.components =
      root.components ++ ((segments package).map Octets.ofText).map .name ++ [last] := by
  obtain ⟨directory, up, filled, fits, above⟩ := sourceRoot?_eq_some h
  obtain ⟨last, split, inner⟩ := Path.components_of_parent up
  obtain ⟨below, parted, length, -⟩ := Path.components_ancestor above
  -- The components below the root are the last ones, and so are the segments.
  have ending : ((segments package).map Octets.ofText).map .name <:+ root.components ++ below := by
    rw [← parted, ← Path.components_ofNames (isName_of_mem_segments plain filled)]
    exact List.isSuffixOf_iff_suffix.1 fits
  have same : ((segments package).map Octets.ofText).map .name = below :=
    (List.suffix_or_suffix_of_suffix ending (List.suffix_append _ _)).elim
      (fun s => s.eq_of_length (by simp [length])) fun s => (s.eq_of_length (by simp [length])).symm
  exact ⟨last, inner, by rw [split, parted, same]⟩

/-- A root expects the names between it and a file as they are shown, joined by dots. -/
theorem expectedPackage?_of_components {names : List Octets} {last : Path.Component}
    (inner : last ≠ .root)
    (h : file.components = root.components ++ names.map .name ++ [last]) :
    expectedPackage? root file =
      some (String.ofList (['.'].intercalate (names.map Text.decodeLossy))) := by
  obtain ⟨directory, up, between⟩ := Path.parent_of_components h inner
  have holds : directory.startsWith root = true := by
    unfold Path.startsWith
    rw [List.isPrefixOf_iff_prefix, between]
    exact List.prefix_append _ _
  unfold expectedPackage? Path.below?
  simp only [up, Option.bind_eq_bind, Option.bind_some, if_pos holds, between,
    List.drop_left, List.map_map, Option.pure_def]
  rfl

/-- Texts are shown as they are. -/
theorem map_decodeLossy_ofText (texts : List String) :
    (texts.map Octets.ofText).map Text.decodeLossy = texts.map String.toList := by
  rw [List.map_map]
  exact List.map_congr_left fun text _ => Text.decodeLossy_encode text.toList

/-- A root, in any spelling, expects the package by which a file revealed it. -/
theorem expectedPackage?_of_sourceRoot? {other : Path} (plain : '/' ∉ package.toList)
    (solid : ∀ c ∈ package.toList, Text.isBlank c = false)
    (h : sourceRoot? file package = some root) (same : other.same root = true) :
    expectedPackage? other file = some package := by
  obtain ⟨last, inner, split⟩ := components_of_sourceRoot? plain h
  have spelled : other.components = root.components := eq_of_beq same
  rw [← spelled] at split
  rw [expectedPackage?_of_components inner split, map_decodeLossy_ofText,
    intercalate_segments solid, String.ofList_toList]

/-- No package is found wrong if every root that holds the file expects it. -/
theorem mismatch?_eq_none {roots : SourceRoots}
    (agree : ∀ other ∈ roots, file.startsWith other = true →
      expectedPackage? other file = some package) :
    mismatch? roots file package = none := by
  unfold mismatch?
  cases holding : roots.holding file with
  | nil => simp
  | cons other rest =>
    have among : other ∈ roots.filter file.startsWith := by
      rw [← SourceRoots.holding, holding]
      exact List.mem_cons_self
    obtain ⟨known, holds⟩ := List.mem_filter.1 among
    have agrees : (expectedPackage? other file == some package) = true := by
      rw [agree other known holds]
      exact beq_self_eq_true _
    simp only [List.any_cons, agrees, Bool.true_or, if_true]

end Layout

end DiagnosticServer
