import DiagnosticServer.Java.CompilationUnit

/-!
# Verdicts on Java files

A file is accepted if it follows the grammar and its package, or the lack of one, is not found
wrong. `parser_eq_accepted_iff` says so in both directions, and what the accepted unit is; so
nothing else has to look into the parser to reason about accepted files.
-/

namespace DiagnosticServer.Java

variable {text : List Char} {tree : Tree} {package : String} {name : Label}

/-- A declared package has no blanks. -/
theorem solid_of_packageDeclaration (h : packageDeclaration text tree = some (package, name)) :
    ∀ c ∈ package.toList, Text.isBlank c = false := by
  simp only [packageDeclaration, Option.bind_eq_bind, Option.pure_def, Option.bind_eq_some_iff,
    Option.some.injEq, Prod.mk.injEq] at h
  obtain ⟨declaration, -, label, -, spelled, -, rfl, -⟩ := h
  intro c among
  rw [String.toList_ofList] at among
  simpa using (List.mem_filter.1 among).2

section

variable {grammar : Grammar} {path : Path} {text : String} {roots : SourceRoots}

/-- A file is accepted if and only if it follows the grammar and the package that it declares, or
the empty one, is not found wrong. A file with a package reveals the root that the package implies,
and one without reveals none. -/
theorem parser_eq_accepted_iff {unit : CompilationUnit} {revealed : List Path} :
    parser grammar path text roots = .accepted unit revealed ↔
      (grammar text).label.hasError = false ∧
      ((∃ package name, packageDeclaration text.toList (grammar text) = some (package, name) ∧
          Layout.mismatch? roots path package = none ∧ unit = ⟨grammar text, some package⟩ ∧
          revealed = (Layout.sourceRoot? path package).toList) ∨
        packageDeclaration text.toList (grammar text) = none ∧
          Layout.mismatch? roots path "" = none ∧ unit = ⟨grammar text, none⟩ ∧ revealed = []) := by
  by_cases error : (grammar text).label.hasError = true
  · simp [parser, error]
  · have checked : parser grammar path text roots =
        checkPackage path text.toList (grammar text) roots := if_neg error
    rw [checked, checkPackage, and_iff_right (Bool.eq_false_iff.2 error)]
    cases packageDeclaration text.toList (grammar text) with
    | none =>
      cases wrong : Layout.mismatch? roots path "" <;> simp [eq_comm]
    | some declared =>
      obtain ⟨package, name⟩ := declared
      simp only [Option.some.injEq, Prod.mk.injEq, reduceCtorEq, false_and, or_false]
      constructor
      · intro accepted
        split at accepted
        · cases accepted
        · rename_i agrees
          cases accepted
          exact ⟨package, name, ⟨rfl, rfl⟩, agrees, rfl, rfl⟩
      · rintro ⟨_, _, ⟨rfl, rfl⟩, agrees, rfl, rfl⟩
        rw [agrees]

/-- A file that follows the grammar and whose package is not found wrong is accepted, and reveals
the root that its package implies. -/
theorem parser_eq_accepted (sound : (grammar text).label.hasError = false)
    (declares : packageDeclaration text.toList (grammar text) = some (package, name))
    (agrees : Layout.mismatch? roots path package = none) :
    parser grammar path text roots =
      .accepted ⟨grammar text, some package⟩ (Layout.sourceRoot? path package).toList :=
  parser_eq_accepted_iff.2 ⟨sound, .inl ⟨package, name, declares, agrees, rfl, rfl⟩⟩

/-- A file that follows the grammar and whose package is found wrong is rejected for that, where the
package is named. -/
theorem parser_eq_rejected {expected : String} (sound : (grammar text).label.hasError = false)
    (declares : packageDeclaration text.toList (grammar text) = some (package, name))
    (wrong : Layout.mismatch? roots path package = some expected) :
    parser grammar path text roots =
      .rejected [wrongPackage text.toList name package expected] := by
  have checked : parser grammar path text roots =
      checkPackage path text.toList (grammar text) roots := if_neg (Bool.eq_false_iff.1 sound)
  rw [checked, checkPackage, declares]
  dsimp only
  rw [wrong]

end

end DiagnosticServer.Java
