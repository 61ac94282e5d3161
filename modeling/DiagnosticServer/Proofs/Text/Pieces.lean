import Mathlib.Data.List.Basic

/-!
# Lists cut at a separator

Paths, packages and texts are cut into pieces by `List.splitOn` and glued together again by
`List.intercalate`, each of which undoes the other. Here it is followed where the elements go: those
of the pieces are those of the whole but for separators, none of which is in a piece that was cut,
and the whole ends as its last piece does. What is written element by element is cut as the list
that it was written from (`splitOn_flatMap`).
-/

namespace DiagnosticServer.Text

variable {α : Type} {separator a : α} {list piece last : List α} {pieces more : List (List α)}

/-! ## Gluing -/

/-- The separator comes between a piece and those after it. -/
theorem intercalate_cons (piece : List α) (some : pieces ≠ []) :
    [separator].intercalate (piece :: pieces) =
      piece ++ separator :: [separator].intercalate pieces := by
  rw [List.intercalate_cons_of_ne_nil some, List.append_assoc, List.singleton_append]

/-- One more piece is glued to the end after a separator. -/
theorem intercalate_append_singleton (some : pieces ≠ []) (last : List α) :
    [separator].intercalate (pieces ++ [last]) =
      [separator].intercalate pieces ++ separator :: last := by
  induction pieces with
  | nil => contradiction
  | cons piece rest ih =>
    cases rest with
    | nil => rw [List.singleton_append, intercalate_cons _ (List.cons_ne_nil _ _)]; simp
    | cons next more =>
      rw [List.cons_append, intercalate_cons _ (by simp), ih (List.cons_ne_nil _ _),
        intercalate_cons _ (List.cons_ne_nil _ _), List.append_assoc, List.cons_append]

/-- An element of what is glued together is one of a piece, or the separator. -/
theorem mem_of_mem_intercalate (among : a ∈ [separator].intercalate pieces) :
    a = separator ∨ ∃ piece ∈ pieces, a ∈ piece := by
  induction pieces with
  | nil => cases among
  | cons piece rest ih =>
    cases rest with
    | nil => exact .inr ⟨piece, List.mem_cons_self, by rwa [List.intercalate_singleton] at among⟩
    | cons next more =>
      rw [intercalate_cons _ (List.cons_ne_nil _ _), List.mem_append, List.mem_cons] at among
      rcases among with first | same | later
      · exact .inr ⟨piece, List.mem_cons_self, first⟩
      · exact .inl same
      · exact (ih later).imp_right fun ⟨other, inside, holds⟩ =>
          ⟨other, List.mem_cons_of_mem _ inside, holds⟩

/-- An element of a piece is one of what is glued together. -/
theorem mem_intercalate_of_mem (among : piece ∈ pieces) (inside : a ∈ piece) :
    a ∈ [separator].intercalate pieces := by
  induction pieces with
  | nil => cases among
  | cons first rest ih =>
    cases rest with
    | nil =>
      rw [List.intercalate_singleton, ← List.mem_singleton.1 among]
      exact inside
    | cons next more =>
      rw [intercalate_cons _ (List.cons_ne_nil _ _), List.mem_append, List.mem_cons]
      rcases List.mem_cons.1 among with rfl | later
      · exact .inl inside
      · exact .inr (.inr (ih later))

/-- Gluing fewer pieces together loses elements only. -/
theorem intercalate_sublist (fewer : pieces.Sublist more) :
    ([separator].intercalate pieces).Sublist ([separator].intercalate more) := by
  induction fewer with
  | slnil => exact .slnil
  | @cons pieces rest piece _ ih =>
    -- A piece that is left out takes the separator behind it along.
    cases rest with
    | nil => exact ih.trans (List.nil_sublist _)
    | cons next others =>
      rw [intercalate_cons _ (List.cons_ne_nil _ _)]
      exact (ih.cons separator).trans (List.sublist_append_right _ _)
  | @cons_cons pieces rest piece within ih =>
    cases pieces with
    | nil =>
      cases rest with
      | nil => exact .refl _
      | cons next others =>
        rw [intercalate_cons _ (List.cons_ne_nil _ _), List.intercalate_singleton]
        exact List.sublist_append_left _ _
    | cons first others =>
      have some : rest ≠ [] := List.ne_nil_of_mem (within.subset List.mem_cons_self)
      rw [intercalate_cons _ (List.cons_ne_nil _ _), intercalate_cons _ some]
      exact (ih.cons_cons separator).append_left piece

/-- Pieces glued together end as the last one does, if it is not empty. -/
theorem getLast?_intercalate_append_singleton (pieces : List (List α)) (filled : last ≠ []) :
    ([separator].intercalate (pieces ++ [last])).getLast? = last.getLast? := by
  cases pieces with
  | nil => rw [List.nil_append, List.intercalate_singleton]
  | cons piece rest =>
    rw [intercalate_append_singleton (List.cons_ne_nil _ _), List.getLast?_append_cons]
    cases last with
    | nil => contradiction
    | cons c more => rw [List.getLast?_cons_cons]

/-- Pieces glued together do not end in the separator if the last of them has elements and does not
hold it. -/
theorem intercalate_unended (before : List (List α)) (filled : last ≠ [])
    (clean : separator ∉ last) :
    [separator].intercalate (before ++ [last]) ≠ [] ∧
      ([separator].intercalate (before ++ [last])).getLast? ≠ some separator := by
  have ends : ([separator].intercalate (before ++ [last])).getLast? = last.getLast? :=
    getLast?_intercalate_append_singleton before filled
  refine ⟨fun short => ?_, fun slash => ?_⟩
  · rw [short] at ends
    exact filled (List.getLast?_eq_none_iff.1 ends.symm)
  · exact clean (List.mem_of_getLast? (ends ▸ slash))

/-! ## Cutting -/

variable [BEq α] [LawfulBEq α]

/-- Pieces glued together are cut where they were glued, and each of them as it is alone. -/
theorem splitOn_intercalate_eq_flatMap (some : pieces ≠ []) :
    ([separator].intercalate pieces).splitOn separator =
      pieces.flatMap (List.splitOn separator) := by
  induction pieces with
  | nil => contradiction
  | cons piece rest ih =>
    cases rest with
    | nil => simp
    | cons next more =>
      rw [intercalate_cons _ (List.cons_ne_nil _ _), List.splitOn_append_cons_self,
        ih (List.cons_ne_nil _ _)]
      exact List.flatMap_cons.symm

/-- No piece of a list holds the separator. -/
theorem not_mem_of_mem_splitOn (among : piece ∈ list.splitOn separator) : separator ∉ piece := by
  induction list generalizing piece with
  | nil => simp_all
  | cons c rest ih =>
    rw [List.splitOn_cons_eq_if_modifyHead] at among
    split at among
    · rcases List.mem_cons.1 among with rfl | later
      · exact List.not_mem_nil
      · exact ih later
    · -- The element joins the first of the later pieces, and is no separator.
      rename_i other
      cases cut : rest.splitOn separator with
      | nil => exact absurd cut (List.splitOn_ne_nil _ _)
      | cons first pieces =>
        rw [cut] at ih among
        rcases List.mem_cons.1 among with rfl | later
        · exact fun inside => (List.mem_cons.1 inside).elim
            (fun same => other (beq_iff_eq.2 same.symm)) (ih List.mem_cons_self)
        · exact ih (List.mem_cons_of_mem _ later)

/-- An element of a piece is one of the list. -/
theorem mem_of_mem_splitOn (among : piece ∈ list.splitOn separator) (inside : a ∈ piece) :
    a ∈ list := by
  have whole : [separator].intercalate (list.splitOn separator) = list :=
    List.intercalate_splitOn separator
  rw [← whole]
  exact mem_intercalate_of_mem among inside

/-- What stands before the first separator goes into the first piece. -/
theorem splitOn_append_of_not_mem (clean : separator ∉ piece) (rest : List α) :
    (piece ++ rest).splitOn separator = (rest.splitOn separator).modifyHead (piece ++ ·) := by
  induction piece with
  | nil =>
    obtain ⟨first, others, cut⟩ := List.exists_cons_of_ne_nil (List.splitOn_ne_nil separator rest)
    rw [List.nil_append, cut]
    rfl
  | cons c more ih =>
    obtain ⟨other, later⟩ := not_or.1 (List.mem_cons.not.1 clean)
    rw [List.cons_append, List.splitOn_cons_eq_if_modifyHead,
      if_neg fun same => other (eq_of_beq same).symm, ih later]
    cases rest.splitOn separator <;> rfl

variable {β : Type} [BEq β] [LawfulBEq β] {write : α → List β} {written : β}

/-- If the separator is written as one element, and nothing else with that element, then what is
written is cut where the list is cut. -/
theorem splitOn_flatMap (single : write separator = [written])
    (others : ∀ a, a ≠ separator → written ∉ write a) (list : List α) :
    (list.flatMap write).splitOn written =
      (list.splitOn separator).map fun piece => piece.flatMap write := by
  induction list with
  | nil => rfl
  | cons a rest ih =>
    rw [List.flatMap_cons, List.splitOn_cons_eq_if_modifyHead]
    split
    · rename_i same
      rw [eq_of_beq same, single, List.singleton_append, List.splitOn_cons_eq_if_modifyHead,
        if_pos BEq.rfl, ih]
      rfl
    · rename_i other
      rw [splitOn_append_of_not_mem (others a fun same => other (beq_iff_eq.2 same)), ih]
      cases rest.splitOn separator <;> simp

end DiagnosticServer.Text
