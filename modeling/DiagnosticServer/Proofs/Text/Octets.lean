import DiagnosticServer.Text.Utf16
import DiagnosticServer.Text.Utf8

/-!
# Counting octets

A text is counted part by part, and has at least as many octets as characters or UTF-16 code units.
Its first octets are found again by their number, if they end at the boundary of a character
(`takeOctets_eq_some_iff`), and so is a piece of it between two such boundaries
(`slice_eq_some_iff`).
-/

namespace DiagnosticServer.Text

/-- The octets of two texts are counted one text after the other. -/
theorem octetCount_append (text more : List Char) :
    octetCount (text ++ more) = octetCount text + octetCount more := by
  have start : ∀ (text : List Char) (count : Nat),
      text.foldl (fun count c => count + c.utf8Size) count = count + octetCount text := by
    intro text
    induction text with
    | nil => exact fun count => rfl
    | cons c rest ih =>
      intro count
      rw [octetCount, List.foldl_cons, List.foldl_cons, ih, ih, Nat.zero_add, Nat.add_assoc]
  rw [octetCount, List.foldl_append, start, ← octetCount]

/-- A text with fewer characters has no more octets. -/
theorem octetCount_le_of_sublist {text more : List Char} (fewer : text.Sublist more) :
    octetCount text ≤ octetCount more := by
  have first : ∀ c rest, octetCount (c :: rest) = octetCount [c] + octetCount rest :=
    fun c rest => octetCount_append [c] rest
  induction fewer with
  | slnil => exact Nat.le_refl _
  | @cons text more c _ ih =>
    rw [first c more]
    exact Nat.le_add_left_of_le ih
  | @cons_cons text more c _ ih =>
    rw [first c text, first c more]
    exact Nat.add_le_add_left ih _

/-- The octets of the first character come first. -/
theorem octetCount_cons (c : Char) (text : List Char) :
    octetCount (c :: text) = c.utf8Size + octetCount text := by
  have single : octetCount [c] = c.utf8Size := by simp [octetCount]
  rw [← single, ← octetCount_append, List.singleton_append]

/-- Every character has an octet. -/
theorem length_le_octetCount (text : List Char) : text.length ≤ octetCount text := by
  induction text with
  | nil => exact Nat.zero_le _
  | cons c rest ih =>
    have filled : 0 < c.utf8Size := c.utf8Size_pos
    rw [octetCount_cons, List.length_cons]
    omega

/-- The code units of two texts are counted one text after the other. -/
theorem unitCount_append (text more : List Char) :
    unitCount (text ++ more) = unitCount text + unitCount more := by
  have start : ∀ (text : List Char) (count : Nat),
      text.foldl (fun count c => count + units c) count = count + unitCount text := by
    intro text
    induction text with
    | nil => exact fun count => rfl
    | cons c rest ih =>
      intro count
      rw [unitCount, List.foldl_cons, List.foldl_cons, ih, ih, Nat.zero_add, Nat.add_assoc]
  rw [unitCount, List.foldl_append, start, ← unitCount]

/-- A character has no more code units than octets: one with two units is no ASCII. -/
theorem units_le_utf8Size (c : Char) : units c ≤ c.utf8Size := by
  have filled : 0 < c.utf8Size := c.utf8Size_pos
  unfold units
  split
  · exact filled
  · rename_i high
    have long : c.utf8Size ≠ 1 := fun single => by
      have low := UInt32.le_iff_toNat_le.1 (Char.utf8Size_eq_one_iff.1 single)
      exact high (Nat.lt_of_le_of_lt low (by decide))
    omega

/-- A text has no more code units than octets. -/
theorem unitCount_le_octetCount (text : List Char) : unitCount text ≤ octetCount text := by
  induction text with
  | nil => exact Nat.le_refl _
  | cons c rest ih =>
    have single : unitCount [c] = units c := by simp [unitCount]
    have bound := units_le_utf8Size c
    rw [octetCount_cons, ← List.singleton_append, unitCount_append, single]
    omega

/-- A text without octets is empty. -/
theorem eq_nil_of_octetCount {text : List Char} (none : octetCount text = 0) : text = [] :=
  List.eq_nil_of_length_eq_zero (Nat.le_zero.1 (none ▸ length_le_octetCount text))

/-- The octets of a text up to some number are those of `before` exactly if it stands at the start
of the text and has that many. -/
theorem takeOctets_eq_some_iff {count : Nat} {text before : List Char} :
    takeOctets count text = some before ↔ before <+: text ∧ octetCount before = count := by
  induction text generalizing count before with
  | nil =>
    rw [List.prefix_nil]
    cases count with
    | zero =>
      rw [takeOctets, Option.some.injEq]
      exact ⟨by rintro rfl; exact ⟨rfl, rfl⟩, fun h => h.1.symm⟩
    | succ count =>
      simp only [takeOctets, reduceCtorEq, false_iff, not_and]
      rintro rfl
      exact Nat.noConfusion
  | cons c rest ih =>
    have filled : 0 < c.utf8Size := c.utf8Size_pos
    cases count with
    | zero =>
      rw [takeOctets, Option.some.injEq]
      exact ⟨by rintro rfl; exact ⟨List.nil_prefix, rfl⟩, fun h => (eq_nil_of_octetCount h.2).symm⟩
    | succ count =>
      rw [takeOctets]
      split
      · rename_i fits
        rw [Option.map_eq_some_iff]
        constructor
        · rintro ⟨more, taken, rfl⟩
          obtain ⟨within, total⟩ := ih.1 taken
          rw [octetCount_cons]
          exact ⟨(List.cons_prefix_cons).2 ⟨rfl, within⟩, by omega⟩
        · rintro ⟨within, total⟩
          cases before with
          | nil => exact absurd total (by simp [octetCount])
          | cons d more =>
            obtain ⟨rfl, after⟩ := List.cons_prefix_cons.1 within
            rw [octetCount_cons] at total
            exact ⟨more, ih.2 ⟨after, by omega⟩, rfl⟩
      · rename_i long
        refine ⟨nofun, fun ⟨within, total⟩ => ?_⟩
        cases before with
        | nil => exact absurd total (by simp [octetCount])
        | cons d more =>
          obtain ⟨rfl, -⟩ := List.cons_prefix_cons.1 within
          rw [octetCount_cons] at total
          omega

/-- Two starts of a text with the same number of octets are the same. -/
theorem eq_of_octetCount {text before other : List Char} (within : before <+: text)
    (within' : other <+: text) (same : octetCount before = octetCount other) : before = other := by
  have taken := takeOctets_eq_some_iff.2 ⟨within, same⟩
  rw [takeOctets_eq_some_iff.2 ⟨within', rfl⟩] at taken
  exact (Option.some.inj taken).symm

/-- Of two starts of a text the one with fewer octets is a start of the other. -/
theorem prefix_of_octetCount_le {text before other : List Char} (within : before <+: text)
    (within' : other <+: text) (le : octetCount before ≤ octetCount other) : before <+: other := by
  rcases List.prefix_or_prefix_of_prefix within within' with shorter | longer
  · exact shorter
  · have fewer := octetCount_le_of_sublist longer.sublist
    obtain rfl := eq_of_octetCount within within' (by omega)
    exact List.prefix_refl before

/-- What follows some number of octets of a text is `rest` exactly if it stands at the end of the
text behind that many. -/
theorem dropOctets_eq_some_iff {count : Nat} {text rest : List Char} :
    dropOctets count text = some rest ↔
      ∃ before, text = before ++ rest ∧ octetCount before = count := by
  fun_induction dropOctets count text with
  | case1 text =>
    constructor
    · intro same
      exact ⟨[], Option.some.inj same, rfl⟩
    · rintro ⟨before, rfl, none⟩
      rw [eq_nil_of_octetCount none, List.nil_append]
  | case2 count =>
    refine ⟨nofun, ?_⟩
    rintro ⟨before, empty, total⟩
    rw [(List.append_eq_nil_iff.1 empty.symm).1] at total
    cases total
  | case3 count c text fits ih =>
    rw [ih]
    clear ih
    constructor
    · rintro ⟨before, rfl, total⟩
      refine ⟨c :: before, rfl, ?_⟩
      rw [octetCount_cons]
      omega
    · rintro ⟨before, split, total⟩
      rcases before with _ | ⟨d, before⟩
      · cases total
      · obtain ⟨rfl, rfl⟩ := List.cons.inj split
        rw [octetCount_cons] at total
        exact ⟨before, rfl, by omega⟩
  | case4 count c text long =>
    refine ⟨nofun, ?_⟩
    rintro ⟨before, split, total⟩
    rcases before with _ | ⟨d, before⟩
    · cases total
    · obtain ⟨rfl, rfl⟩ := List.cons.inj split
      rw [octetCount_cons] at total
      omega

/-- What a text has between two byte offsets is `piece` exactly if that piece stands there. -/
theorem slice_eq_some_iff {text piece : List Char} {start stop : Nat} :
    slice text start stop = some piece ↔ ∃ before rest, text = before ++ piece ++ rest ∧
      octetCount before = start ∧ octetCount (before ++ piece) = stop := by
  unfold slice
  split
  · rename_i le
    simp only [Option.bind_eq_some_iff, dropOctets_eq_some_iff, takeOctets_eq_some_iff]
    constructor
    · rintro ⟨_, ⟨before, rfl, rfl⟩, ⟨rest, rfl⟩, total⟩
      refine ⟨before, rest, (List.append_assoc _ _ _).symm, rfl, ?_⟩
      rw [octetCount_append]
      omega
    · rintro ⟨before, rest, rfl, rfl, rfl⟩
      refine ⟨piece ++ rest, ⟨before, List.append_assoc _ _ _, rfl⟩, List.prefix_append _ _, ?_⟩
      rw [octetCount_append]
      omega
  · rename_i gt
    refine ⟨nofun, ?_⟩
    rintro ⟨before, rest, rfl, rfl, rfl⟩
    rw [octetCount_append] at gt
    omega

/-- Two pieces of a text that meet are one. -/
theorem slice_append {text piece next : List Char} {start middle stop : Nat}
    (first : slice text start middle = some piece) (second : slice text middle stop = some next) :
    slice text start stop = some (piece ++ next) := by
  obtain ⟨before, rest, split, begins, ends⟩ := slice_eq_some_iff.1 first
  obtain ⟨before', rest', split', begins', ends'⟩ := slice_eq_some_iff.1 second
  -- What stands before the second piece ends with the first.
  have within : before ++ piece <+: text := ⟨rest, split.symm⟩
  have within' : before' <+: text := ⟨next ++ rest', by rw [split', List.append_assoc]⟩
  obtain rfl := eq_of_octetCount within within' (ends.trans begins'.symm)
  refine slice_eq_some_iff.2 ⟨before, rest', ?_, begins, ?_⟩
  · rw [split', List.append_assoc before]
  · rw [← List.append_assoc]
    exact ends'

end DiagnosticServer.Text
