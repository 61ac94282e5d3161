import DiagnosticServer.Proofs.Path.Normal
import DiagnosticServer.Proofs.Text.Utf8
import DiagnosticServer.Uri.FilePath

/-!
# URIs of files, written and read

Every octet is read back from how it is written in a URI, but the octets that are read are taken for
UTF-8. So the URI of a path names that path if it is a text, whatever characters it has, and else
the path that is shown in the same way (`toFilePath?_ofAbsolutePath`). The URI of an absolute path
is a well-formed one of a file (`parse_ofAbsolutePath`): all that is written of an octet may stand
in the path of a URI.
-/

namespace DiagnosticServer.Uri

/-! ## Octets -/

/-- A hexadecimal digit is read back from how it is written. -/
theorem hexValue_hexDigit : ∀ n < 16, hexValue (hexDigit n) = n := by decide +kernel

/-- Numbers below sixteen are written as hexadecimal digits. -/
theorem isHex_hexDigit : ∀ n < 16, isHex (hexDigit n) = true := by decide +kernel

/-- A character other than the percent sign stands for its own octet. -/
theorem decodeOctets_cons {c : Char} (h : c ≠ '%') (rest : List Char) :
    decodeOctets (c :: rest) = UInt8.ofNat c.toNat :: decodeOctets rest := by
  rw [decodeOctets]
  rintro a b more rfl
  exact absurd rfl h

/-- An octet is written as a character that may stand in a path and is no percent sign, or as a
percent sign and two digits. -/
theorem encodeOctet_cases (octet : UInt8) :
    (∃ c, encodeOctet octet = [c] ∧ c ≠ '%' ∧ isPath c = true ∧ UInt8.ofNat c.toNat = octet) ∨
      encodeOctet octet = ['%', hexDigit (octet.toNat / 16), hexDigit (octet.toNat % 16)] := by
  unfold encodeOctet
  simp only
  split
  · rename_i plain
    left
    simp only [Bool.and_eq_true, Bool.or_eq_true, decide_eq_true_eq, beq_iff_eq] at plain
    obtain ⟨small, stands⟩ := plain
    refine ⟨_, rfl, ?_, ?_, ?_⟩
    · intro percent
      rw [percent] at stands
      revert stands
      decide
    · rcases stands with free | slash
      · simp [isPath, isUserInfo, isHost, free]
      · simp [isPath, slash]
    · have valid : octet.toNat.isValidChar := .inl (by
        have := UInt8.lt_iff_toNat_lt.1 small
        simp at this
        omega)
      rw [Char.ofNat, dif_pos valid]
      exact UInt8.ofNat_toNat
  · exact .inr rfl

/-- An octet is read back from how it is written. -/
theorem decodeOctets_encodeOctet (octet : UInt8) (rest : List Char) :
    decodeOctets (encodeOctet octet ++ rest) = octet :: decodeOctets rest := by
  have bound := octet.toNat_lt
  rcases encodeOctet_cases octet with ⟨c, written, other, -, same⟩ | written
  · rw [written, List.singleton_append, decodeOctets_cons other, same]
  · rw [written]
    show UInt8.ofNat _ :: decodeOctets rest = _
    rw [hexValue_hexDigit _ (by omega), hexValue_hexDigit _ (by omega), Nat.div_add_mod',
      UInt8.ofNat_toNat]

/-- Octets are read back from how they are written. -/
theorem decodeOctets_flatMap (octets : Octets) :
    decodeOctets (octets.flatMap encodeOctet) = octets := by
  induction octets with
  | nil => rfl
  | cons octet rest ih => rw [List.flatMap_cons, decodeOctets_encodeOctet, ih]

/-! ## Paths -/

/-- What is written of octets may stand in the path of a URI. -/
theorem runFrom_flatMap (octets : Octets) (index : Nat) : ∃ stop,
    Cursor.runFrom isPath index (octets.flatMap encodeOctet) =
      .ok (octets.flatMap encodeOctet, ⟨stop, []⟩) := by
  induction octets generalizing index with
  | nil => exact ⟨index, rfl⟩
  | cons octet rest ih =>
    have bound := octet.toNat_lt
    rw [List.flatMap_cons]
    rcases encodeOctet_cases octet with ⟨c, written, other, stands, -⟩ | written
    · obtain ⟨stop, run⟩ := ih (index + 1)
      refine ⟨stop, ?_⟩
      rw [written, List.singleton_append, Cursor.runFrom]
      · rw [if_neg other, if_pos stands, run]
        rfl
      · rintro a b more rfl
        exact absurd rfl other
    · -- A percent sign is read with the two digits behind it.
      obtain ⟨stop, run⟩ := ih (index + 3)
      have digits : (isHex (hexDigit (octet.toNat / 16)) && isHex (hexDigit (octet.toNat % 16))) =
          true := by
        rw [isHex_hexDigit _ (by omega), isHex_hexDigit _ (by omega)]
        rfl
      refine ⟨stop, ?_⟩
      rw [written, List.cons_append, List.cons_append, List.cons_append, List.nil_append,
        Cursor.runFrom, if_pos digits, run]
      rfl

variable {path : Path}

/-- What is written of an absolute path starts with a separator. -/
theorem exists_encoded (absolute : path.isAbsolute = true) : ∃ rest : Octets,
    path.octets.flatMap encodeOctet = '/' :: rest.flatMap encodeOctet := by
  obtain ⟨rest, spelled⟩ := List.head?_eq_some_iff.1 (Path.isAbsolute_iff.1 absolute)
  exact ⟨rest, by rw [spelled]; rfl⟩

/-- The URI of a path stands for the octets of the path. -/
theorem decodeOctets_ofAbsolutePath (path : Path) :
    decodeOctets (ofAbsolutePath path).path.toList = path.octets := by
  rw [ofAbsolutePath, String.toList_ofList, decodeOctets_flatMap]

/-- Different paths have different URIs. -/
theorem ofAbsolutePath_injective : Function.Injective ofAbsolutePath := by
  intro path other same
  have alike : path.octets = other.octets := by
    rw [← decodeOctets_ofAbsolutePath, same, decodeOctets_ofAbsolutePath]
  exact congrArg Path.ofOctets alike

/-- Octets that are there are shown by some text. -/
theorem decodeLossy_ne_nil {octets : Octets} (filled : octets ≠ []) :
    Text.decodeLossy octets ≠ [] := by
  obtain ⟨lead, rest, rfl⟩ := List.exists_cons_of_ne_nil filled
  rw [Text.decodeLossy]
  exact List.cons_ne_nil _ _

/-- The URI of an absolute path names the path that the text spells by which the path is shown. -/
theorem toFilePath?_ofAbsolutePath (absolute : path.isAbsolute = true) :
    (ofAbsolutePath path).toFilePath? = some (.mk path.text) := by
  have filled : path.octets ≠ [] := fun empty => by
    rw [Path.isAbsolute_iff, empty] at absolute
    cases absolute
  unfold toFilePath?
  rw [decodeOctets_ofAbsolutePath]
  split
  · rename_i empty
    exact absurd empty (decodeLossy_ne_nil filled)
  · rfl

/-- The path that a URI names is a text. -/
theorem isText_of_toFilePath? {uri : Uri} (named : uri.toFilePath? = some path) :
    path.octets.IsText := by
  unfold toFilePath? at named
  split at named
  · cases named
  · cases named
    exact Octets.isText_iff.2 ⟨_, rfl⟩

/-- The URI of an absolute path is one of a file. -/
theorem isFile_ofAbsolutePath (path : Path) : (ofAbsolutePath path).isFile = true := by
  show ("file".toLower == "file") = true
  decide +kernel

/-- The URI of an absolute path is well-formed. -/
theorem parse_ofAbsolutePath (absolute : path.isAbsolute = true) :
    parse (ofAbsolutePath path).text = .ok (ofAbsolutePath path) := by
  obtain ⟨rest, encoded⟩ := exists_encoded absolute
  have written : ofAbsolutePath path =
      ⟨"file://" ++ String.ofList ('/' :: rest.flatMap encodeOctet), "file",
        String.ofList ('/' :: rest.flatMap encodeOctet)⟩ := by
    rw [ofAbsolutePath, encoded]
  have spelled : ("file://" ++ String.ofList ('/' :: rest.flatMap encodeOctet)).toList =
      'f' :: 'i' :: 'l' :: 'e' :: ':' :: '/' :: '/' :: '/' :: rest.flatMap encodeOctet := by
    rw [String.toList_append, String.toList_ofList (l := '/' :: _)]
    rfl
  -- The scheme and an empty authority are read first; all that follows is the path.
  obtain ⟨stop, run⟩ := runFrom_flatMap rest 8
  have ran : Cursor.runFrom isPath 7 ('/' :: rest.flatMap encodeOctet) =
      .ok ('/' :: rest.flatMap encodeOctet, ⟨stop, []⟩) := by
    rw [Cursor.runFrom, if_neg (by decide), if_pos (by decide), run]
    · rfl
    · rintro a b more percent
      exact absurd percent (by decide)
  have scheme : readScheme ⟨0, 'f' :: 'i' :: 'l' :: 'e' :: ':' :: '/' :: '/' :: '/' ::
      rest.flatMap encodeOctet⟩ =
      .ok (['f', 'i', 'l', 'e'], ⟨5, '/' :: '/' :: '/' :: rest.flatMap encodeOctet⟩) := rfl
  have authority : readOptionalAuthority ⟨5, '/' :: '/' :: '/' :: rest.flatMap encodeOctet⟩ =
      .ok (true, ⟨7, '/' :: rest.flatMap encodeOctet⟩) := rfl
  rw [written]
  unfold parse
  rw [spelled, scheme]
  simp only [bind, Except.bind, authority, Cursor.run, ran]
  rfl

end DiagnosticServer.Uri
