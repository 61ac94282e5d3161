import Mathlib.Tactic.SplitIfs
import Mathlib.Data.List.TakeWhile
import DiagnosticServer.Proofs.Text.Pieces
import DiagnosticServer.Text.Octets

/-!
# Reading back what was written

The octets of a text are read as that text, although the reader takes any octets: no character is
written in a form that begins well and does not end well (`decodeLossy_encode`). An octet below 128
is written for its own character only, so that a text may as well be cut at such a character before
it is written as afterwards (`splitOn_encode`), and texts are cut into texts and glued to texts.
-/

namespace DiagnosticServer.Text

/-- How many octets follow one in its character, in terms of its number. -/
theorem followers_ofNat {n : Nat} (h : n < 256) : followers (UInt8.ofNat n) =
    if n < 0x80 then some 0
    else if 0xC2 ≤ n ∧ n ≤ 0xDF then some 1
    else if 0xE0 ≤ n ∧ n ≤ 0xEF then some 2
    else if 0xF0 ≤ n ∧ n ≤ 0xF4 then some 3
    else none := by
  simp [followers, UInt8.lt_iff_toNat_lt, UInt8.le_iff_toNat_le, Nat.mod_eq_of_lt h]

/-- What may come second in a character, in terms of the number of its first octet. -/
theorem secondRange_ofNat {n : Nat} (h : n < 256) : secondRange (UInt8.ofNat n) =
    if n = 0xE0 then (0xA0, 0xBF)
    else if n = 0xED then (0x80, 0x9F)
    else if n = 0xF0 then (0x90, 0xBF)
    else if n = 0xF4 then (0x80, 0x8F)
    else (0x80, 0xBF) := by
  simp [secondRange, ← UInt8.toNat_inj, Nat.mod_eq_of_lt h]

/-- An octet comes second in a character if its number is neither too small nor too large for the
first. -/
theorem within_secondRange {n m : Nat} (hn : n < 256) (hm : m < 64)
    (e0 : n = 0xE0 → 0x20 ≤ m) (ed : n = 0xED → m < 0x20) (f0 : n = 0xF0 → 0x10 ≤ m)
    (f4 : n = 0xF4 → m < 0x10) :
    (secondRange (UInt8.ofNat n)).1 ≤ UInt8.ofNat (m + 128) ∧
      UInt8.ofNat (m + 128) ≤ (secondRange (UInt8.ofNat n)).2 := by
  have small : m + 128 < 256 := by omega
  rw [secondRange_ofNat hn]
  split_ifs <;> simp [UInt8.le_iff_toNat_le, Nat.mod_eq_of_lt small] <;> omega

/-- An octet with six free bits continues a character. -/
theorem isContinuation_ofNat {m : Nat} (h : m < 64) :
    isContinuation (UInt8.ofNat (m + 128)) = true := by
  have small : m + 128 < 256 := by omega
  simp [isContinuation, UInt8.le_iff_toNat_le, Nat.mod_eq_of_lt small]
  omega

/-- Octets that lead and continue a character are read as one. -/
theorem leadingChar_of_whole {c : Char} {lead second : UInt8} {tail : List UInt8}
    (rest : List UInt8) (wanted : followers lead = some (tail.length + 1))
    (fits : (secondRange lead).1 ≤ second ∧ second ≤ (secondRange lead).2)
    (continues : ∀ octet ∈ tail, isContinuation octet = true)
    (spells : codePoint lead (second :: tail) = c.toNat) :
    leadingChar lead (second :: tail ++ rest) = (c, (second :: tail).length) := by
  have all : tail.takeWhile isContinuation = tail := List.takeWhile_eq_self_iff.2 continues
  simp [leadingChar, wanted, continuations, fits, all, spells, Nat.add_comm]

/-- What a character is written as is read as that character, whatever follows. -/
theorem leadingChar_utf8EncodeChar (c : Char) (rest : List UInt8) : ∃ lead tail,
    String.utf8EncodeChar c = lead :: tail ∧
      leadingChar lead (tail ++ rest) = (c, tail.length) := by
  have valid : c.val.toNat < 0xD800 ∨ 0xDFFF < c.val.toNat ∧ c.val.toNat < 0x110000 := c.valid
  have number : c.toNat = c.val.toNat := rfl
  unfold String.utf8EncodeChar
  generalize c.val.toNat = v at valid number
  simp only
  -- One case for each number of octets, from one to four.
  split_ifs with one two three
  · refine ⟨_, _, rfl, ?_⟩
    have first : v % 256 = c.toNat := by omega
    rw [leadingChar, followers_ofNat (by omega), if_pos (by omega)]
    simp [continuations, codePoint, first]
  · refine ⟨_, _, rfl, leadingChar_of_whole rest ?_
      (within_secondRange (by omega) (by omega) (by omega) (by omega) (by omega) (by omega)) ?_ ?_⟩
    · rw [followers_ofNat (by omega), if_neg (by omega), if_pos (by omega)]
      rfl
    · exact List.forall_mem_nil _
    · simp [codePoint]
      omega
  · refine ⟨_, _, rfl, leadingChar_of_whole rest ?_
      (within_secondRange (by omega) (by omega) (by omega) (by omega) (by omega) (by omega)) ?_ ?_⟩
    · rw [followers_ofNat (by omega), if_neg (by omega), if_neg (by omega), if_pos (by omega)]
      rfl
    · exact List.forall_mem_singleton.2 (isContinuation_ofNat (by omega))
    · simp [codePoint]
      omega
  · refine ⟨_, _, rfl, leadingChar_of_whole rest ?_
      (within_secondRange (by omega) (by omega) (by omega) (by omega) (by omega) (by omega)) ?_ ?_⟩
    · rw [followers_ofNat (by omega), if_neg (by omega), if_neg (by omega), if_neg (by omega),
        if_pos (by omega)]
      rfl
    · exact List.forall_mem_cons.2 ⟨isContinuation_ofNat (by omega),
        List.forall_mem_singleton.2 (isContinuation_ofNat (by omega))⟩
    · simp [codePoint]
      omega

/-- The octets of a text are read as the text. -/
@[simp]
theorem decodeLossy_encode (text : List Char) : decodeLossy (encode text) = text := by
  induction text with
  | nil => rw [encode, List.flatMap_nil, decodeLossy]
  | cons c rest ih =>
    obtain ⟨lead, tail, written, read⟩ := leadingChar_utf8EncodeChar c (encode rest)
    have octets : encode (c :: rest) = lead :: (tail ++ encode rest) := by
      rw [encode, List.flatMap_cons, written, List.cons_append]
      rfl
    rw [octets, decodeLossy, read]
    simp only [List.drop_left, ih]

/-- Different texts have different octets. -/
theorem encode_injective : Function.Injective encode := fun text other same => by
  rw [← decodeLossy_encode text, same, decodeLossy_encode]

/-! ## ASCII -/

/-- An ASCII character is written as one octet, and every other one as octets from 128. -/
theorem utf8EncodeChar_cases (c : Char) :
    c.toNat < 128 ∧ String.utf8EncodeChar c = [UInt8.ofNat c.toNat] ∨
      128 ≤ c.toNat ∧ ∀ octet ∈ String.utf8EncodeChar c, 128 ≤ octet.toNat := by
  have number : c.toNat = c.val.toNat := rfl
  have bound : c.val.toNat < 0x110000 := by
    have valid : c.val.toNat < 0xD800 ∨ 0xDFFF < c.val.toNat ∧ c.val.toNat < 0x110000 := c.valid
    omega
  rw [number]
  unfold String.utf8EncodeChar
  generalize c.val.toNat = v at bound
  simp only
  split_ifs with one two three
  · exact .inl ⟨by omega, rfl⟩
  all_goals
    -- Each octet of the longer forms is a remainder with a high bit added.
    refine .inr ⟨by omega, ?_⟩
    simp only [List.forall_mem_cons, UInt8.toNat_ofNat', List.not_mem_nil, false_imp_iff,
      implies_true, and_true]
    omega

variable {a : Char}

/-- No character but its own is written with the octet of an ASCII character. -/
theorem not_mem_utf8EncodeChar (ascii : a.toNat < 128) {c : Char} (other : c ≠ a) :
    UInt8.ofNat a.toNat ∉ String.utf8EncodeChar c := by
  intro among
  rcases utf8EncodeChar_cases c with ⟨small, single⟩ | ⟨-, large⟩
  · rw [single, List.mem_singleton, ← UInt8.toNat_inj, UInt8.toNat_ofNat',
      UInt8.toNat_ofNat'] at among
    exact other (Char.toNat_inj.1 (by omega))
  · have bound := large _ among
    rw [UInt8.toNat_ofNat'] at bound
    omega

/-- An ASCII character is written as one octet. -/
theorem utf8EncodeChar_of_lt (ascii : a.toNat < 128) :
    String.utf8EncodeChar a = [UInt8.ofNat a.toNat] :=
  (utf8EncodeChar_cases a).elim And.right fun ⟨large, _⟩ => absurd ascii (Nat.not_lt.2 large)

/-- A text has the octet of an ASCII character if and only if it has the character. -/
theorem mem_encode_iff (ascii : a.toNat < 128) {text : List Char} :
    UInt8.ofNat a.toNat ∈ encode text ↔ a ∈ text := by
  rw [encode, List.mem_flatMap]
  constructor
  · rintro ⟨c, among, inside⟩
    by_cases same : c = a
    · exact same ▸ among
    · exact absurd inside (not_mem_utf8EncodeChar ascii same)
  · intro among
    exact ⟨a, among, by rw [utf8EncodeChar_of_lt ascii]; exact List.mem_singleton_self _⟩

/-- A text is cut at an ASCII character where its octets are cut at the octet. -/
theorem splitOn_encode (ascii : a.toNat < 128) (text : List Char) :
    (encode text).splitOn (UInt8.ofNat a.toNat) = (text.splitOn a).map encode :=
  splitOn_flatMap (utf8EncodeChar_of_lt ascii) (fun _ => not_mem_utf8EncodeChar ascii) text

end DiagnosticServer.Text

namespace DiagnosticServer.Octets

/-- The octets of a text are shown as the text. -/
@[simp]
theorem text_ofText (text : String) : Octets.text (ofText text) = text := by
  rw [Octets.text, ofText, Text.decodeLossy_encode, String.ofList_toList]

/-- Octets are those by which they are shown exactly if some text has them. -/
theorem isText_iff {octets : Octets} : IsText octets ↔ ∃ text, octets = ofText text :=
  ⟨fun same => ⟨_, same.symm⟩, fun ⟨text, written⟩ => by rw [IsText, written, text_ofText]⟩

variable {octets more : Octets}

/-- A text behind a text is a text. -/
theorem IsText.append (text : octets.IsText) (also : more.IsText) : (octets ++ more).IsText := by
  obtain ⟨front, rfl⟩ := isText_iff.1 text
  obtain ⟨back, rfl⟩ := isText_iff.1 also
  refine isText_iff.2 ⟨front ++ back, ?_⟩
  rw [ofText, ofText, ofText, String.toList_append]
  exact List.flatMap_append.symm

/-- The separator is a text. -/
theorem isText_slash : IsText [slash] := isText_iff.2 ⟨"/", rfl⟩

/-- Between two separators a text has a text. -/
theorem IsText.of_mem_splitOn {piece : Octets} (text : octets.IsText)
    (among : piece ∈ octets.splitOn slash) : piece.IsText := by
  obtain ⟨whole, rfl⟩ := isText_iff.1 text
  have cut := Text.splitOn_encode (a := '/') (by decide) whole.toList
  rw [ofText, show slash = UInt8.ofNat '/'.toNat from rfl, cut] at among
  obtain ⟨part, -, rfl⟩ := List.mem_map.1 among
  exact isText_iff.2 ⟨String.ofList part, by rw [ofText, String.toList_ofList]⟩

/-- Texts with separators between them are a text. -/
theorem isText_intercalate {pieces : List Octets} (texts : ∀ piece ∈ pieces, piece.IsText) :
    IsText ([slash].intercalate pieces) := by
  induction pieces with
  | nil => exact isText_iff.2 ⟨"", rfl⟩
  | cons piece rest ih =>
    obtain ⟨first, later⟩ := List.forall_mem_cons.1 texts
    cases rest with
    | nil => rwa [List.intercalate_singleton]
    | cons next others =>
      rw [Text.intercalate_cons piece (List.cons_ne_nil _ _), ← List.singleton_append]
      exact first.append (isText_slash.append (ih later))

end DiagnosticServer.Octets
