import DiagnosticServer.Diagnostic
import DiagnosticServer.Proofs.Text.Rows

/-!
# Positions as an editor reads them

An editor that is given a position goes down to its line, and then along the line by UTF-16 code
units. `Text.upTo?` is that walk, and `upTo?_eq_some_iff` says which start of a text it passes: the
one with as many line feeds and as many code units after the last of them as the position says. A
position that was made from a byte offset therefore leads back to it, no two offsets have the same
position, and positions are in the order of their offsets. The range of a diagnostic selects what
lies between the offsets that it was made from.
-/

namespace DiagnosticServer

namespace Text

variable {text before more : List Char}

/-- What an editor has passed of a text after going down some lines and then along some code units.
There is nothing if the text ends too early, if the line does, or if the place is in the middle of a
character. -/
def upTo? : (lines count : Nat) → List Char → Option (List Char)
  | 0, 0, _ => some []
  | 0, _ + 1, [] => none
  | 0, count + 1, c :: rest =>
    if c = '\n' ∨ count + 1 < units c then none
    else (upTo? 0 (count + 1 - units c) rest).map (c :: ·)
  | _ + 1, _, [] => none
  | lines + 1, count, c :: rest =>
    (upTo? (if c = '\n' then lines else lines + 1) count rest).map (c :: ·)

/-- Every character has a code unit. -/
theorem units_pos (c : Char) : 0 < units c := by
  unfold units
  split <;> omega

/-- The code units of the first character come first. -/
theorem unitCount_cons (c : Char) (text : List Char) :
    unitCount (c :: text) = units c + unitCount text := by
  have single : unitCount [c] = units c := by simp [unitCount]
  rw [← single, ← unitCount_append, List.singleton_append]

/-- A text without code units is empty. -/
theorem eq_nil_of_unitCount (none : unitCount text = 0) : text = [] := by
  induction text with
  | nil => rfl
  | cons c rest _ =>
    have filled := units_pos c
    rw [unitCount_cons] at none
    omega

/-- A line feed at the start of a text is in none of its rows. -/
theorem lastRow_cons_feed (text : List Char) : lastRow ('\n' :: text) = lastRow text := by
  rcases rows_cases text with single | ⟨start, row, rfl, single⟩
  · rw [lastRow_of_not_mem single, ← List.nil_append ('\n' :: text), lastRow_append_cons single]
  · rw [lastRow_append_cons single, ← List.cons_append, lastRow_append_cons single]

/-- A character before a line feed is not in the last row. -/
theorem lastRow_cons_of_mem (c : Char) (feed : '\n' ∈ text) :
    lastRow (c :: text) = lastRow text := by
  rcases rows_cases text with single | ⟨start, row, rfl, single⟩
  · exact absurd feed single
  · rw [lastRow_append_cons single, ← List.cons_append, lastRow_append_cons single]

/-- The row that a text without line feeds goes on with starts with its first character. -/
theorem lastRow_cons_of_not_mem {c : Char} (other : c ≠ '\n') (single : '\n' ∉ text) :
    lastRow (c :: text) = c :: text := by
  refine lastRow_of_not_mem fun feed => ?_
  rcases List.mem_cons.1 feed with first | later
  · exact other first.symm
  · exact single later

/-- An editor passes the start of a text by going down as many lines as it has line feeds, and along
as many code units as it has after the last of them. -/
theorem upTo?_append (before rest : List Char) :
    upTo? (before.count '\n') (unitCount (lastRow before)) (before ++ rest) = some before := by
  induction before with
  | nil => simp [upTo?, lastRow, unitCount]
  | cons c more ih =>
    rw [List.cons_append]
    by_cases feed : c = '\n'
    · subst feed
      rw [List.count_cons_self, lastRow_cons_feed, upTo?, if_pos rfl, ih]
      rfl
    · rw [List.count_cons_of_ne feed]
      by_cases further : '\n' ∈ more
      · -- The row of this character is not the last one.
        obtain ⟨lines, counted⟩ := Nat.exists_eq_add_of_lt (List.count_pos_iff.2 further)
        rw [lastRow_cons_of_mem c further]
        rw [Nat.zero_add] at counted
        rw [counted] at ih ⊢
        rw [upTo?, if_neg feed, ih]
        rfl
      · -- This character is on the last row, and its code units are passed now.
        have filled := units_pos c
        have whole := lastRow_of_not_mem further
        rw [lastRow_cons_of_not_mem feed further, unitCount_cons]
        rw [List.count_eq_zero.2 further, whole] at ih
        rw [List.count_eq_zero.2 further]
        obtain ⟨count, total⟩ : ∃ count, units c + unitCount more = count + 1 :=
          ⟨units c + unitCount more - 1, by omega⟩
        have fits : ¬(c = '\n' ∨ count + 1 < units c) := by
          rintro (same | long)
          · exact feed same
          · omega
        have left : count + 1 - units c = unitCount more := by omega
        rw [total, upTo?, if_neg fits, left, ih]
        rfl

/-- What an editor has passed has as many line feeds as it went down lines, and as many code units
after the last of them as it went along. -/
theorem of_upTo? {lines count : Nat} (passed : upTo? lines count text = some before) :
    before <+: text ∧ before.count '\n' = lines ∧ unitCount (lastRow before) = count := by
  fun_induction upTo? lines count text generalizing before with
  | case1 text =>
    obtain rfl := Option.some.inj passed
    exact ⟨List.nil_prefix, rfl, rfl⟩
  | case2 count => cases passed
  | case3 count c rest stops => cases passed
  | case4 count c rest goes ih =>
    obtain ⟨more, taken, rfl⟩ := Option.map_eq_some_iff.1 passed
    obtain ⟨within, feeds, total⟩ := ih taken
    have other : c ≠ '\n' := fun feed => goes (.inl feed)
    have single : '\n' ∉ more := List.count_eq_zero.1 feeds
    rw [lastRow_of_not_mem single] at total
    rw [lastRow_cons_of_not_mem other single, unitCount_cons, List.count_cons_of_ne other]
    exact ⟨List.cons_prefix_cons.2 ⟨rfl, within⟩, feeds, by omega⟩
  | case5 lines count => cases passed
  | case6 lines count c rest ih =>
    obtain ⟨more, taken, rfl⟩ := Option.map_eq_some_iff.1 passed
    obtain ⟨within, feeds, total⟩ := ih taken
    refine ⟨List.cons_prefix_cons.2 ⟨rfl, within⟩, ?_, ?_⟩
    · by_cases feed : c = '\n'
      · rw [if_pos feed] at feeds
        rw [feed, List.count_cons_self, feeds]
      · rw [if_neg feed] at feeds
        rw [List.count_cons_of_ne feed, feeds]
    · by_cases feed : c = '\n'
      · rw [feed, lastRow_cons_feed, total]
      · rw [if_neg feed] at feeds
        have further : '\n' ∈ more := List.count_pos_iff.1 (by omega)
        rw [lastRow_cons_of_mem c further, total]

/-- An editor has passed the start of a text that has as many line feeds as it went down lines, and
as many code units after the last of them as it went along, and nothing else. -/
theorem upTo?_eq_some_iff {lines count : Nat} : upTo? lines count text = some before ↔
    before <+: text ∧ before.count '\n' = lines ∧ unitCount (lastRow before) = count := by
  refine ⟨of_upTo?, ?_⟩
  rintro ⟨⟨rest, rfl⟩, rfl, rfl⟩
  exact upTo?_append before rest

end Text

variable {text before more : List Char}

namespace EditorPosition

/-- The position behind a text. -/
def after (before : List Char) : EditorPosition :=
  ⟨before.count '\n', Text.unitCount (Text.lastRow before)⟩

/-- The byte offset that a position leads an editor to. -/
def offset? (text : List Char) (position : EditorPosition) : Option Nat :=
  (Text.upTo? position.line position.character text).map Text.octetCount

/-- A position comes before another one: it is on an earlier line, or further to the left. -/
def Precedes (a b : EditorPosition) : Prop :=
  a.line < b.line ∨ a.line = b.line ∧ a.character < b.character

instance (a b : EditorPosition) : Decidable (a.Precedes b) :=
  inferInstanceAs (Decidable (_ ∨ _))

/-- A position does not come before itself. -/
theorem not_precedes_self (a : EditorPosition) : ¬a.Precedes a := by
  unfold Precedes
  omega

/-- Of two positions only one comes before the other. -/
theorem Precedes.asymm {a b : EditorPosition} (first : a.Precedes b) : ¬b.Precedes a := by
  unfold Precedes at first ⊢
  omega

/-- The position behind a longer start of a text comes later. -/
theorem after_precedes (shorter : before <+: more) (other : before ≠ more) :
    (after before).Precedes (after more) := by
  obtain ⟨next, rfl⟩ := shorter
  have some : next ≠ [] := by
    rintro rfl
    exact other (List.append_nil before).symm
  unfold Precedes after
  rw [List.count_append]
  by_cases feed : '\n' ∈ next
  · have later : 0 < next.count '\n' := List.count_pos_iff.2 feed
    left
    show before.count '\n' < before.count '\n' + next.count '\n'
    omega
  · -- Both are on the same row, and every character of the difference has a code unit.
    have filled : Text.unitCount next ≠ 0 := fun none => some (Text.eq_nil_of_unitCount none)
    rw [List.count_eq_zero.2 feed, Text.lastRow_append feed, Text.unitCount_append]
    right
    refine ⟨rfl, ?_⟩
    show Text.unitCount (Text.lastRow before) < Text.unitCount (Text.lastRow before) + _
    omega

/-- A position leads to the offset of a start of a text exactly if it is the one behind it. -/
theorem offset?_eq_some_iff (within : before <+: text) {position : EditorPosition} :
    position.offset? text = some (Text.octetCount before) ↔ position = after before := by
  unfold offset?
  rw [Option.map_eq_some_iff]
  constructor
  · rintro ⟨passed, walked, same⟩
    obtain ⟨within', lines, units⟩ := Text.upTo?_eq_some_iff.1 walked
    rw [← Text.eq_of_octetCount within' within same]
    show position = ⟨passed.count '\n', Text.unitCount (Text.lastRow passed)⟩
    rw [lines, units]
  · rintro rfl
    exact ⟨before, Text.upTo?_eq_some_iff.2 ⟨within, rfl, rfl⟩, rfl⟩

end EditorPosition

namespace EditorRange

/-- What an editor selects in a text when it is shown a range. -/
def selection? (text : List Char) (range : EditorRange) : Option (List Char) := do
  let before ← Text.upTo? range.start.line range.start.character text
  let passed ← Text.upTo? range.stop.line range.stop.character text
  if before.isPrefixOf passed then some (passed.drop before.length) else none

/-- Between the positions behind two starts of a text is what the longer one has more. -/
theorem selection?_after {piece : List Char} (within : before ++ piece <+: text) :
    selection? text ⟨.after before, .after (before ++ piece)⟩ = some piece := by
  have start : Text.upTo? (EditorPosition.after before).line (EditorPosition.after before).character
      text = some before :=
    Text.upTo?_eq_some_iff.2 ⟨(List.prefix_append before piece).trans within, rfl, rfl⟩
  have stop : Text.upTo? (EditorPosition.after (before ++ piece)).line
      (EditorPosition.after (before ++ piece)).character text = some (before ++ piece) :=
    Text.upTo?_eq_some_iff.2 ⟨within, rfl, rfl⟩
  have inside : before.isPrefixOf (before ++ piece) = true :=
    List.isPrefixOf_iff_prefix.2 (List.prefix_append before piece)
  unfold selection?
  simp only [start, stop, inside, if_true, Option.bind_eq_bind, Option.bind_some, List.drop_left]

end EditorRange

/-- Below the limit of 32 bits an editor is given the position behind the start of a text. -/
theorem Point.toEditor_position_after (within : before <+: text)
    (short : Text.octetCount text < UInt32.size - 1) :
    ((after before).position text).toEditor = .after before := by
  rw [position_after within short]
  rfl

/-- Offsets are in the order of their positions in an editor. -/
theorem Point.precedes_iff_lt (within : before <+: text) (within' : more <+: text) :
    (EditorPosition.after before).Precedes (.after more) ↔
      Text.octetCount before < Text.octetCount more := by
  have rises : ∀ {a b : List Char}, a <+: text → b <+: text →
      Text.octetCount a < Text.octetCount b →
        (EditorPosition.after a).Precedes (.after b) := fun ha hb lt =>
    EditorPosition.after_precedes (Text.prefix_of_octetCount_le ha hb lt.le)
      fun same => lt.ne (congrArg Text.octetCount same)
  refine ⟨fun first => ?_, rises within within'⟩
  rcases Nat.lt_trichotomy (Text.octetCount before) (Text.octetCount more) with lt | same | gt
  · exact lt
  · rw [Text.eq_of_octetCount within within' same] at first
    exact absurd first (EditorPosition.not_precedes_self _)
  · exact absurd first (rises within' within gt).asymm

/-- In a text of fewer than `2 ^ 32 - 1` octets take any byte offset at the boundary of a character,
from the start of the text to its end. Its position has one more than the line feeds before the
offset as its line, and one more than the UTF-16 code units after the last of them as its column. An
editor is given the two numbers themselves, and of all positions only this one leads it back to the
offset. Positions are in the order of their offsets, so no two offsets have the same one. The range
of a diagnostic that was made from two offsets does not end before it starts, and selects what the
text has between them. -/
theorem editor_positions_exact (short : Text.octetCount text < UInt32.size - 1) :
    (∀ offset before, Text.takeOctets offset text = some before →
      (Point.after before).position text =
        ⟨before.count '\n' + 1, 1 + Text.unitCount (Text.lastRow before)⟩ ∧
      ((Point.after before).position text).toEditor =
        ⟨before.count '\n', Text.unitCount (Text.lastRow before)⟩ ∧
      ∀ position : EditorPosition, position.offset? text = some offset ↔
        position = ((Point.after before).position text).toEditor) ∧
    (∀ offset later point other, Point.ofOffset? text offset = some point →
      Point.ofOffset? text later = some other →
        ((point.position text).toEditor.Precedes (other.position text).toEditor ↔
          offset < later)) ∧
    ∀ offset later (label : Label) source message,
      Point.ofOffset? text offset = some label.start →
      Point.ofOffset? text later = some label.stop → offset ≤ later →
        ∃ range, range = (Diagnostic.ofProblem source ⟨some (label.place text), message⟩).range ∧
          (range.start = range.stop ∨ range.start.Precedes range.stop) ∧
          ∃ piece, Text.slice text offset later = some piece ∧
            range.selection? text = some piece := by
  refine ⟨?_, ?_, ?_⟩
  · intro offset before taken
    obtain ⟨within, rfl⟩ := Text.takeOctets_eq_some_iff.1 taken
    have shown := Point.toEditor_position_after within short
    refine ⟨?_, shown, fun position => ?_⟩
    · rw [Point.position_after within short, Nat.add_comm 1]
    · rw [shown]
      exact EditorPosition.offset?_eq_some_iff within
  · intro offset later point other here there
    obtain ⟨before, taken, rfl⟩ := Option.map_eq_some_iff.1 here
    obtain ⟨more, taken', rfl⟩ := Option.map_eq_some_iff.1 there
    obtain ⟨within, rfl⟩ := Text.takeOctets_eq_some_iff.1 taken
    obtain ⟨within', rfl⟩ := Text.takeOctets_eq_some_iff.1 taken'
    rw [Point.toEditor_position_after within short, Point.toEditor_position_after within' short]
    exact Point.precedes_iff_lt within within'
  · intro offset later label source message here there le
    obtain ⟨before, taken, start⟩ := Option.map_eq_some_iff.1 here
    obtain ⟨more, taken', stop⟩ := Option.map_eq_some_iff.1 there
    obtain ⟨within, rfl⟩ := Text.takeOctets_eq_some_iff.1 taken
    obtain ⟨within', rfl⟩ := Text.takeOctets_eq_some_iff.1 taken'
    obtain ⟨piece, rfl⟩ := Text.prefix_of_octetCount_le within within' le
    have range : (Diagnostic.ofProblem source ⟨some (label.place text), message⟩).range =
        ⟨.after before, .after (before ++ piece)⟩ := by
      show (label.place text).toEditor = _
      unfold Label.place Range.toEditor
      rw [← start, ← stop, Point.toEditor_position_after within short,
        Point.toEditor_position_after within' short]
    refine ⟨_, range.symm, ?_, piece, ?_, EditorRange.selection?_after within'⟩
    · by_cases empty : before = before ++ piece
      · exact .inl (congrArg EditorPosition.after empty)
      · exact .inr (EditorPosition.after_precedes (List.prefix_append before piece) empty)
    · obtain ⟨rest, split⟩ := within'
      exact Text.slice_eq_some_iff.2 ⟨before, rest, split.symm, rfl, rfl⟩

namespace Mixed

/-- A text with characters of one and of two code units, both kinds of line ends, and an empty
line. -/
def source : List Char := "é😀\r\n\nx".toList

/-- A node from the second character to the start of the last line. -/
def span : Label := ⟨"ERROR", true, true, false, true, 2, 9, ⟨0, 2⟩, ⟨2, 0⟩⟩

end Mixed

open Mixed in
/-- The offset behind a surrogate pair has a position of its own, and a node that starts with the
pair and ends behind an empty line is selected whole. -/
theorem surrogates_and_empty_line_selected :
    Text.octetCount source < UInt32.size - 1 ∧ Text.takeOctets 6 source = some "é😀".toList ∧
    Point.ofOffset? source 2 = some span.start ∧ Point.ofOffset? source 9 = some span.stop ∧
    (∀ position : EditorPosition, position.offset? source = some 6 ↔ position = ⟨0, 3⟩) ∧
    EditorPosition.Precedes ⟨0, 1⟩ ⟨2, 0⟩ ∧
    (Diagnostic.ofProblem "jml" ⟨some (span.place source), "unread"⟩).range =
      ⟨⟨0, 1⟩, ⟨2, 0⟩⟩ ∧
    EditorRange.selection? source ⟨⟨0, 1⟩, ⟨2, 0⟩⟩ = some "😀\r\n\n".toList := by
  have short : Text.octetCount source < UInt32.size - 1 := by decide
  have taken : Text.takeOctets 6 source = some "é😀".toList := by decide
  have start : Point.ofOffset? source 2 = some span.start := by decide
  have stop : Point.ofOffset? source 9 = some span.stop := by decide
  obtain ⟨exact, ordered, selected⟩ := editor_positions_exact short
  obtain ⟨-, -, back⟩ := exact 6 _ taken
  have behind : ((Point.after "é😀".toList).position source).toEditor = ⟨0, 3⟩ := by decide
  obtain ⟨range, rfl, -, piece, cut, whole⟩ :=
    selected 2 9 span "jml" "unread" start stop (by decide)
  have place : (Diagnostic.ofProblem "jml" ⟨some (span.place source), "unread"⟩).range =
      ⟨⟨0, 1⟩, ⟨2, 0⟩⟩ := by decide
  have between : Text.slice source 2 9 = some "😀\r\n\n".toList := by decide
  rw [place, ← cut, between] at whole
  refine ⟨short, taken, start, stop, fun position => ?_, ?_, place, whole⟩
  · rw [back position, behind]
  · exact (ordered 2 9 _ _ start stop).2 (by decide)

end DiagnosticServer
