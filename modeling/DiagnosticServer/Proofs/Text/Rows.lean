import Mathlib.Data.List.DropRight
import DiagnosticServer.Proofs.Text.Octets
import DiagnosticServer.Tree.Place

/-!
# Offsets, points and positions

A place in a text is given by the number of octets before it, by a point, or by a position. The
point of an offset has the number of line feeds before it as its row, and the octets after the last
one as its column. The position of such a point counts the same row in UTF-16 code units
(`position_after`), as long as 32 bits are enough, and positions are in the order of the offsets
(`position_isLE_of_le`).
-/

namespace DiagnosticServer

namespace Text

variable {text before row : List Char}

/-- What a text has after its last line feed. -/
def lastRow (text : List Char) : List Char := text.rtakeWhile (· != '\n')

/-- A text without line feeds is one row. -/
theorem lastRow_of_not_mem (single : '\n' ∉ text) : lastRow text = text :=
  List.rtakeWhile_eq_self_iff.2 fun _ among => bne_iff_ne.2 fun feed => single (feed ▸ among)

/-- The last row starts after the last line feed. -/
theorem lastRow_append_cons (single : '\n' ∉ row) : lastRow (before ++ '\n' :: row) = row := by
  have turned : (before ++ '\n' :: row).reverse = row.reverse ++ '\n' :: before.reverse := by simp
  rw [lastRow, List.rtakeWhile, turned, List.takeWhile_append_of_pos,
    List.takeWhile_cons_of_neg (by simp), List.append_nil, List.reverse_reverse]
  exact fun c among => bne_iff_ne.2 fun feed => single (feed ▸ List.mem_reverse.1 among)

/-- The last row is the end of a text. -/
theorem lastRow_suffix (text : List Char) : lastRow text <:+ text := List.rtakeWhile_suffix _ _

/-- A text is one row, or has a last line feed. -/
theorem rows_cases (text : List Char) : '\n' ∉ text ∨
    ∃ before row, text = before ++ '\n' :: row ∧ '\n' ∉ row := by
  induction text with
  | nil => exact .inl List.not_mem_nil
  | cons c rest ih =>
    rcases ih with single | ⟨before, row, rfl, single⟩
    · by_cases feed : c = '\n'
      · exact .inr ⟨[], rest, by rw [feed, List.nil_append], single⟩
      · exact .inl fun among => (List.mem_cons.1 among).elim (fun same => feed same.symm) single
    · exact .inr ⟨c :: before, row, rfl, single⟩

/-- A row goes on until the next line feed. -/
theorem lastRow_append (single : '\n' ∉ row) : lastRow (text ++ row) = lastRow text ++ row := by
  rcases rows_cases text with alone | ⟨before, start, rfl, alone⟩
  · rw [lastRow_of_not_mem alone, lastRow_of_not_mem]
    exact fun among => (List.mem_append.1 among).elim alone single
  · rw [List.append_assoc, List.cons_append, lastRow_append_cons alone, lastRow_append_cons]
    exact fun among => (List.mem_append.1 among).elim alone single

/-- The row after a number of line feeds starts behind the last of them. -/
theorem fromRow_append_cons (before rest : List Char) :
    fromRow (before.count '\n' + 1) (before ++ '\n' :: rest) = some rest := by
  induction before with
  | nil => simp [fromRow]
  | cons c more ih =>
    rw [List.cons_append, fromRow]
    by_cases feed : c = '\n'
    · rw [if_pos feed, feed, List.count_cons_self, ih]
    · rw [if_neg feed, List.count_cons_of_ne feed, ih]

/-- The row that a text ends in is found by the number of line feeds in it. -/
theorem fromRow_count (before rest : List Char) :
    fromRow (before.count '\n') (before ++ rest) = some (lastRow before ++ rest) := by
  rcases rows_cases before with single | ⟨earlier, row, rfl, single⟩
  · rw [List.count_eq_zero.2 single, lastRow_of_not_mem single]
    cases before ++ rest <;> rfl
  · rw [lastRow_append_cons single, List.count_append, List.count_cons_self,
      List.count_eq_zero.2 single, List.append_assoc, List.cons_append]
    exact fromRow_append_cons earlier (row ++ rest)

end Text

namespace Point

variable {text before more : List Char}

/-- The point behind a text. -/
def after (before : List Char) : Point :=
  ⟨before.count '\n', Text.octetCount (Text.lastRow before)⟩

/-- The point of a byte offset, if it is the boundary of a character. -/
def ofOffset? (text : List Char) (offset : Nat) : Option Point :=
  (Text.takeOctets offset text).map after

/-- Below the limit of 32 bits the numbers from one are the successors. -/
theorem fromOne_of_lt {number : Nat} (short : number < UInt32.size - 1) :
    fromOne number = number + 1 :=
  Nat.mod_eq_of_lt (by omega)

/-- The position of the point behind the start of a text counts the line feeds, and the UTF-16 code
units after the last one. -/
theorem position_after (within : before <+: text) (short : Text.octetCount text < UInt32.size - 1) :
    (after before).position text =
      ⟨before.count '\n' + 1, Text.unitCount (Text.lastRow before) + 1⟩ := by
  have bound : Text.octetCount before ≤ Text.octetCount text :=
    Text.octetCount_le_of_sublist within.sublist
  have rows : before.count '\n' ≤ Text.octetCount before :=
    Nat.le_trans List.count_le_length (Text.length_le_octetCount before)
  have units : Text.unitCount (Text.lastRow before) ≤ Text.octetCount before :=
    Nat.le_trans (Text.unitCount_le_octetCount _)
      (Text.octetCount_le_of_sublist (Text.lastRow_suffix before).sublist)
  obtain ⟨rest, rfl⟩ := within
  have taken : Text.takeOctets (Text.octetCount (Text.lastRow before))
      (Text.lastRow before ++ rest) = some (Text.lastRow before) :=
    Text.takeOctets_eq_some_iff.2 ⟨List.prefix_append _ _, rfl⟩
  have column : (after before).textColumn (before ++ rest) =
      fromOne (Text.unitCount (Text.lastRow before)) := by
    simp only [textColumn, after, Text.fromRow_count, Option.bind_some, taken]
  rw [position, column, fromOne_of_lt (Nat.lt_of_le_of_lt (Nat.le_trans units bound) short)]
  exact congrArg (Position.mk · _)
    (fromOne_of_lt (Nat.lt_of_le_of_lt (Nat.le_trans rows bound) short))

end Point

namespace Position

variable {a b : Position}

/-- A position comes no later than one on a later line, or on the same line and no further to the
left. -/
theorem isLE_of (h : a.line < b.line ∨ a.line = b.line ∧ a.column ≤ b.column) :
    (a.compare b).isLE = true := by
  unfold compare
  rcases h with above | ⟨same, left⟩
  · rw [Nat.compare_eq_lt.2 above]
    rfl
  · rw [same, Nat.compare_eq_eq.2 rfl]
    exact Nat.isLE_compare.2 left

end Position

namespace Point

variable {text before more : List Char}

/-- The point behind a shorter start of a text has no later position. -/
theorem position_after_isLE (shorter : before <+: more) (within : more <+: text)
    (short : Text.octetCount text < UInt32.size - 1) :
    (((after before).position text).compare ((after more).position text)).isLE = true := by
  rw [position_after (shorter.trans within) short, position_after within short]
  obtain ⟨next, rfl⟩ := shorter
  refine Position.isLE_of ?_
  rw [List.count_append]
  by_cases feed : '\n' ∈ next
  · have later : 0 < next.count '\n' := List.count_pos_iff.2 feed
    exact .inl (by simp only; omega)
  · rw [List.count_eq_zero.2 feed, Text.lastRow_append feed, Text.unitCount_append]
    exact .inr ⟨rfl, by simp only; omega⟩

/-- Positions are in the order of the byte offsets. -/
theorem position_isLE_of_le {offset later : Nat} {point other : Point}
    (here : ofOffset? text offset = some point) (there : ofOffset? text later = some other)
    (le : offset ≤ later) (short : Text.octetCount text < UInt32.size - 1) :
    ((point.position text).compare (other.position text)).isLE = true := by
  obtain ⟨before, taken, rfl⟩ := Option.map_eq_some_iff.1 here
  obtain ⟨more, taken', rfl⟩ := Option.map_eq_some_iff.1 there
  obtain ⟨within, count⟩ := Text.takeOctets_eq_some_iff.1 taken
  obtain ⟨within', count'⟩ := Text.takeOctets_eq_some_iff.1 taken'
  have shorter : before <+: more :=
    Text.prefix_of_octetCount_le within within' (by omega)
  exact position_after_isLE shorter within' short

end Point

end DiagnosticServer
