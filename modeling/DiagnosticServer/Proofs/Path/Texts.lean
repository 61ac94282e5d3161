import DiagnosticServer.Path.Normal
import DiagnosticServer.Proofs.Path.Components
import DiagnosticServer.Proofs.Text.Utf8

/-!
# Paths that are texts

The separator is an ASCII character, so a text is cut there into texts, and texts are glued together
there to a text. All that stands between is kept or left out as a whole when a path is normalised:
the normal form of a text is a text (`isText_normalize`).
-/

namespace DiagnosticServer.Path

variable {path : Path} {stack all : List Component} {c : Component}

/-- A path that is a text is the path as it is shown. -/
theorem mk_text (text : path.octets.IsText) : mk path.text = path := congrArg ofOctets text

/-- The components of a path that is a text are written as texts. -/
theorem isText_of_mem_components (text : path.octets.IsText) :
    ∀ c ∈ path.components, c.octets.IsText := by
  have pieces : ∀ piece ∈ path.pieces, piece.IsText := fun piece => text.of_mem_splitOn
  obtain ⟨first, rest, cut, listed, -⟩ := path.exists_pieces
  rw [cut] at pieces
  intro c among
  rw [listed] at among
  rcases List.mem_append.1 among with led | later
  · -- The first piece may stand for the root, and otherwise for what it is written as.
    have led := Option.mem_toList.1 led
    unfold leading at led
    split at led
    · split at led <;> cases led
      exact Octets.isText_slash
    · split at led
      · rename_i current
        cases led
        have text := pieces first List.mem_cons_self
        rwa [current] at text
      · rw [Component.octets_of_ofPiece? led]
        exact pieces first List.mem_cons_self
  · obtain ⟨piece, inside, found⟩ := List.mem_filterMap.1 later
    rw [Component.octets_of_ofPiece? found]
    exact pieces piece (List.mem_cons_of_mem _ inside)

/-- Components that are texts spell a path that is one. -/
theorem isText_ofComponents (texts : ∀ c ∈ all, c.octets.IsText) :
    (ofComponents all).octets.IsText := by
  unfold ofComponents
  split
  · rw [← List.singleton_append]
    refine Octets.isText_slash.append (Octets.isText_intercalate (List.forall_mem_map.2 ?_))
    exact fun c among => texts c (List.mem_cons_of_mem _ among)
  · exact Octets.isText_intercalate (List.forall_mem_map.2 texts)

/-- On the stack after one more component is what was there before, or that component. -/
theorem mem_settle {d : Component} (among : d ∈ settle stack c) : d ∈ stack ∨ d = c := by
  cases c with
  | root => exact (List.mem_cons.1 among).symm
  | current => exact .inl among
  | name octets => exact (List.mem_cons.1 among).symm
  | parent =>
    -- A `..` takes a name off, vanishes at the root, and stays otherwise.
    cases stack with
    | nil => exact (List.mem_cons.1 among).symm
    | cons top below =>
      cases top with
      | root => exact .inl among
      | name octets => exact .inl (List.mem_cons_of_mem _ among)
      | current => exact (List.mem_cons.1 among).symm
      | parent => exact (List.mem_cons.1 among).symm

/-- Nothing is on the stack but components of the path. -/
theorem mem_foldl_settle {d : Component} (among : d ∈ all.foldl settle stack) :
    d ∈ stack ∨ d ∈ all := by
  induction all generalizing stack with
  | nil => exact .inl among
  | cons c rest ih =>
    rcases ih among with settled | later
    · exact (mem_settle settled).imp_right fun same => List.mem_cons.2 (.inl same)
    · exact .inr (List.mem_cons_of_mem _ later)

/-- The normal form of a path that is a text is a text. -/
theorem isText_normalize (text : path.octets.IsText) : path.normalize.octets.IsText :=
  isText_ofComponents fun c among =>
    isText_of_mem_components text c
      ((mem_foldl_settle (List.mem_reverse.1 among)).resolve_left List.not_mem_nil)

end DiagnosticServer.Path
