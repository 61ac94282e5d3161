import DiagnosticServer.Proofs.Java.CompilationUnit
import DiagnosticServer.Proofs.Layout.Packages
import DiagnosticServer.Proofs.SourceRoots

/-!
# Packages and the roots that other files reveal

The roots become known in whatever order the parses end, so a verdict must not depend on it. A
declared package is right if any root that holds the file expects it, and otherwise it is the
enclosing root that says what was expected (`mismatch?_of_disagree`); both are the same for all
lists that know the same roots. A file that is accepted and reveals a root is then accepted whatever
roots are known beside its own, since that one expects its package.
-/

namespace DiagnosticServer

namespace Layout

variable {roots others : SourceRoots} {file root other : Path} {declared package : String}

/-- What a root expects does not depend on how it is spelled. -/
theorem expectedPackage?_congr (alike : other.components = root.components) :
    expectedPackage? other file = expectedPackage? root file := by
  have below (directory : Path) : directory.below? other = directory.below? root := by
    rw [Path.below?, Path.below?, Path.startsWith_congr alike, alike]
  unfold expectedPackage?
  simp only [below]

/-- A root that holds a file expects the package that the file declares. -/
def Agrees (roots : SourceRoots) (file : Path) (declared : String) : Prop :=
  ∃ root ∈ roots, file.startsWith root = true ∧ expectedPackage? root file = some declared

/-- Lists that know the same roots agree with the same packages. -/
theorem Agrees.congr (same : ∀ root, roots.knows root = others.knows root)
    (agrees : Agrees roots file declared) : Agrees others file declared := by
  obtain ⟨root, known, holds, expects⟩ := agrees
  obtain ⟨twin, among, alike⟩ := SourceRoots.exists_twin same known
  exact ⟨twin, among, (Path.startsWith_congr alike).trans holds,
    (expectedPackage?_congr alike).trans expects⟩

/-- The test for a root that agrees. -/
theorem any_expects_iff :
    ((roots.holding file).any fun root => expectedPackage? root file == some declared) = true ↔
      Agrees roots file declared := by
  simp only [List.any_eq_true, SourceRoots.mem_holding, beq_iff_eq, and_assoc, Agrees]

/-- A package that some root agrees with is not found wrong. -/
theorem mismatch?_of_agrees (agrees : Agrees roots file declared) :
    mismatch? roots file declared = none :=
  if_pos (any_expects_iff.2 agrees)

/-- The last of several paths in the order of their depths is one of the deepest. -/
theorem depth_le_of_getLast?_mergeSort {paths : List Path}
    (last : (paths.mergeSort fun a b => a.depth ≤ b.depth).getLast? = some root) :
    root ∈ paths ∧ ∀ other ∈ paths, other.depth ≤ root.depth := by
  have sorted := @List.pairwise_mergeSort _ (fun a b : Path => decide (a.depth ≤ b.depth))
    (fun a b c first second =>
      decide_eq_true (Nat.le_trans (of_decide_eq_true first) (of_decide_eq_true second)))
    (fun a b => by
      rw [Bool.or_eq_true, decide_eq_true_eq, decide_eq_true_eq]
      exact Nat.le_total _ _) paths
  obtain ⟨before, split⟩ := List.getLast?_eq_some_iff.1 last
  rw [split, List.pairwise_append] at sorted
  refine ⟨List.mem_mergeSort.1 (List.mem_of_getLast? last), fun other among => ?_⟩
  have inside : other ∈ before ++ [root] := split ▸ List.mem_mergeSort.2 among
  rcases List.mem_append.1 inside with early | late
  · exact of_decide_eq_true (sorted.2.2 other early root (List.mem_singleton_self _))
  · cases List.mem_singleton.1 late
    exact Nat.le_refl _

/-- If no root agrees with the package of a file, the one that encloses the file decides. -/
theorem mismatch?_of_disagree (disagree : ¬ Agrees roots file declared) :
    mismatch? roots file declared =
      (roots.enclosing file).bind fun root => expectedPackage? root file := by
  have sorts : mismatch? roots file declared =
      ((roots.holding file).mergeSort fun a b => a.depth ≤ b.depth).getLast?.bind fun root =>
        expectedPackage? root file :=
    if_neg (mt any_expects_iff.1 disagree)
  rw [sorts]
  cases last : ((roots.holding file).mergeSort fun a b => a.depth ≤ b.depth).getLast? with
  | none =>
    have empty : roots.holding file = [] := by
      rw [List.getLast?_eq_none_iff] at last
      exact List.eq_nil_of_length_eq_zero (by rw [← List.length_mergeSort, last]; rfl)
    rw [SourceRoots.enclosing, empty]
    rfl
  | some deepest =>
    obtain ⟨among, greatest⟩ := depth_le_of_getLast?_mergeSort last
    obtain ⟨known, holds⟩ := SourceRoots.mem_holding.1 among
    cases enclosing : roots.enclosing file with
    | none =>
      have outside := SourceRoots.enclosing_eq_none_iff.1 enclosing deepest known
      rw [holds] at outside
      cases outside
    | some root =>
      -- Both are the deepest root that holds the file, perhaps spelled differently.
      obtain ⟨also, holdsToo, within⟩ := SourceRoots.enclosing_spec enclosing
      have deep := greatest root (SourceRoots.mem_holding.2 ⟨also, holdsToo⟩)
      exact expectedPackage?_congr (Path.components_eq_of_startsWith
        (Path.startsWith_of_depth_le holds holdsToo deep) (within deepest known holds))

/-- Lists that know the same roots have the same verdict on a package. -/
theorem mismatch?_congr (same : ∀ root, roots.knows root = others.knows root) (file : Path)
    (declared : String) : mismatch? others file declared = mismatch? roots file declared := by
  by_cases agrees : Agrees roots file declared
  · rw [mismatch?_of_agrees agrees, mismatch?_of_agrees (agrees.congr same)]
  · have disagrees : ¬ Agrees others file declared := fun also =>
      agrees (also.congr fun root => (same root).symm)
    have enclosing := SourceRoots.enclosing_congr same file
    rw [mismatch?_of_disagree agrees, mismatch?_of_disagree disagrees]
    cases here : roots.enclosing file with
    | none =>
      rw [here, Option.map_none, Option.map_eq_none_iff] at enclosing
      rw [enclosing]
    | some root =>
      rw [here, Option.map_some, Option.map_eq_some_iff] at enclosing
      obtain ⟨other, there, alike⟩ := enclosing
      rw [there]
      exact expectedPackage?_congr alike

/-- The package of a file is not found wrong if any root that holds the file expects it. Otherwise
the package that was expected is that of the root that encloses the file, which lies in every other
root that holds it; without such a root nothing was expected. Neither the verdict nor, up to its
spelling, the enclosing root changes when the list of roots is put in another order, lists roots
several times, or spells them otherwise. -/
theorem mismatch_decided_by_enclosing_root (roots : SourceRoots) (file : Path) (declared : String) :
    ((∃ root ∈ roots, file.startsWith root = true ∧ expectedPackage? root file = some declared) →
      mismatch? roots file declared = none) ∧
    ((¬ ∃ root ∈ roots, file.startsWith root = true ∧
        expectedPackage? root file = some declared) →
      mismatch? roots file declared =
        (roots.enclosing file).bind fun root => expectedPackage? root file) ∧
    (∀ root, roots.enclosing file = some root →
      root ∈ roots ∧ file.startsWith root = true ∧
        ∀ other ∈ roots, file.startsWith other = true → root.startsWith other = true) ∧
    (roots.enclosing file = none ↔ ∀ root ∈ roots, file.startsWith root = false) ∧
    ∀ others, Relation.EqvGen SourceRoots.Recast roots others →
      mismatch? others file declared = mismatch? roots file declared ∧
      (others.enclosing file).map Path.components =
        (roots.enclosing file).map Path.components := by
  refine ⟨mismatch?_of_agrees, mismatch?_of_disagree, fun root => SourceRoots.enclosing_spec,
    SourceRoots.enclosing_eq_none_iff, fun others recast => ?_⟩
  have same := SourceRoots.knows_eq_of_recast recast
  exact ⟨mismatch?_congr same file declared, SourceRoots.enclosing_congr same file⟩

namespace Nested

/-- Two roots, one in the other. -/
def both : SourceRoots := [⟨"/p/src"⟩, ⟨"/p"⟩]

/-- The same roots in another order, one of them spelled otherwise, and one of them twice. -/
def recast : SourceRoots := [⟨"/p"⟩, ⟨"/p/.//src/"⟩, ⟨"/p"⟩]

/-- A file in both roots. -/
def app : Path := ⟨"/p/src/org/App.java"⟩

/-- The one list is the other one recast. -/
theorem recast_both : Relation.EqvGen SourceRoots.Recast both recast := by
  have swapped : SourceRoots.Recast both [⟨"/p"⟩, ⟨"/p/src"⟩] := .reordered (.swap _ _ [])
  have spelled : SourceRoots.Recast [⟨"/p"⟩, ⟨"/p/src"⟩] [⟨"/p"⟩, ⟨"/p/.//src/"⟩] :=
    @SourceRoots.Recast.respelled [⟨"/p"⟩] [] _ _ (by decide +kernel)
  have doubled : SourceRoots.Recast [⟨"/p"⟩, ⟨"/p/.//src/"⟩] recast := .repeated List.mem_cons_self
  exact ((Relation.EqvGen.rel _ _ swapped).trans _ _ _ (.rel _ _ spelled)).trans _ _ _
    (.rel _ _ doubled)

end Nested

open Nested in
/-- The outer root agrees with a package that the inner one does not expect. A package that neither
expects is judged by the inner root, also when the roots are recast. -/
theorem inner_root_decides_when_recast :
    (∃ root ∈ both, app.startsWith root = true ∧ expectedPackage? root app = some "src.org") ∧
    mismatch? both app "src.org" = none ∧
    (¬ ∃ root ∈ both, app.startsWith root = true ∧ expectedPackage? root app = some "com") ∧
    mismatch? both app "com" = some "org" ∧
    Relation.EqvGen SourceRoots.Recast both recast ∧
    mismatch? recast app "com" = some "org" := by
  have agrees : ∃ root ∈ both, app.startsWith root = true ∧
      expectedPackage? root app = some "src.org" := by decide +kernel
  have disagrees : ¬ ∃ root ∈ both, app.startsWith root = true ∧
      expectedPackage? root app = some "com" := by decide +kernel
  obtain ⟨-, decides, -, -, same⟩ := mismatch_decided_by_enclosing_root both app "com"
  have wrong : mismatch? both app "com" = some "org" := by
    rw [decides disagrees]
    decide +kernel
  exact ⟨agrees, (mismatch_decided_by_enclosing_root both app "src.org").1 agrees, disagrees, wrong,
    recast_both, ((same recast recast_both).1).trans wrong⟩

/-! ## Files with a root of their own -/

section

open Java

variable {grammar : Grammar} {path : Path} {text : String} {unit : CompilationUnit}

/-- The directory of a file lies in the root that the file reveals. -/
theorem startsWith_of_sourceRoot? (h : sourceRoot? file package = some root) :
    ∃ directory, file.parent = some directory ∧ directory.startsWith root = true := by
  obtain ⟨directory, up, -, -, above⟩ := sourceRoot?_eq_some h
  obtain ⟨below, parted, -, -⟩ := Path.components_ancestor above
  exact ⟨directory, up, Path.startsWith_iff.2 (parted ▸ List.prefix_append _ _)⟩

/-- A root that a file reveals holds the file, in any spelling. -/
theorem holds_of_sourceRoot? (h : sourceRoot? file package = some root)
    (alike : other.components = root.components) : file.startsWith other = true := by
  obtain ⟨directory, up, inside⟩ := startsWith_of_sourceRoot? h
  obtain ⟨last, split, -⟩ := Path.components_of_parent up
  rw [Path.startsWith_congr alike, Path.startsWith_iff, split]
  exact (Path.startsWith_iff.1 inside).trans (List.prefix_append _ _)

/-- If a file with a package that is no path is accepted and reveals a root, then its directory lies
in that root, the root expects the package, and the file is accepted in the same way whenever that
root is known, in whatever place and spelling and beside whatever others. So it still is when the
root and any others have been registered. -/
theorem accepted_whenever_own_root_known
    (accepted : parser grammar path text roots = .accepted unit [root])
    (named : unit.package = some package) (plain : '/' ∉ package.toList) :
    (∃ directory, path.parent = some directory ∧ directory.startsWith root = true) ∧
    expectedPackage? root path = some package ∧
    (∀ others : SourceRoots, others.knows root = true →
      parser grammar path text others = .accepted unit [root]) ∧
    ∀ (known : SourceRoots) (more : List Path),
      parser grammar path text ((known.register root).registerAll more) =
        .accepted unit [root] := by
  obtain ⟨sound, ⟨declared, name, declares, -, rfl, revealed⟩ | ⟨-, -, -, bare⟩⟩ :=
    parser_eq_accepted_iff.1 accepted
  · obtain rfl : declared = package := Option.some.inj named
    have reveals : sourceRoot? path declared = some root :=
      Option.mem_toList.1 (revealed ▸ List.mem_singleton_self root)
    have solid := solid_of_packageDeclaration declares
    have expects {other : Path} (same : other.same root = true) :
        expectedPackage? other path = some declared :=
      expectedPackage?_of_sourceRoot? plain solid reveals same
    have again (others : SourceRoots) (known : others.knows root = true) :
        parser grammar path text others = .accepted ⟨grammar text, some declared⟩ [root] := by
      obtain ⟨twin, among, alike⟩ := SourceRoots.knows_iff.1 known
      have agrees : Agrees others path declared :=
        ⟨twin, among, holds_of_sourceRoot? reveals alike.symm, expects (Path.same_iff.2 alike.symm)⟩
      rw [parser_eq_accepted sound declares (mismatch?_of_agrees agrees), reveals]
      rfl
    refine ⟨startsWith_of_sourceRoot? reveals, expects (Path.same_iff.2 rfl), again,
      fun known more => again _ (SourceRoots.knows_registerAll more ?_)⟩
    exact SourceRoots.knows_register.2 (.inr (Path.same_iff.2 rfl))
  · cases bare

end

namespace Spelled

/-- The tree of a text that declares a package of three letters. -/
def page : Tree :=
  .node ⟨"program", true, false, false, false, 0, 12, ⟨0, 0⟩, ⟨0, 12⟩⟩
    [.node ⟨"package_declaration", true, false, false, false, 0, 12, ⟨0, 0⟩, ⟨0, 12⟩⟩
      [.node ⟨"identifier", true, false, false, false, 8, 11, ⟨0, 8⟩, ⟨0, 11⟩⟩ []]]

/-- A relative path that is not spelled in the shortest way. -/
def path : Path := ⟨"./p//src/./org/App.java"⟩

/-- The unit that the text is. -/
def unit : Java.CompilationUnit := ⟨page, some "org"⟩

/-- The root of the file in another spelling, with another root around it and one inside. -/
def around : SourceRoots := [⟨"./p"⟩, ⟨"./p/src/"⟩, ⟨"./p/src/org"⟩]

end Spelled

open Spelled in
/-- A file that was accepted when no root was known is accepted when the root that encloses it is
not its own. -/
theorem accepted_beside_inner_root :
    Java.parser (fun _ => page) path "package org;" [] = .accepted unit [⟨"./p//src"⟩] ∧
    unit.package = some "org" ∧ '/' ∉ "org".toList ∧
    SourceRoots.enclosing around path = some ⟨"./p/src/org"⟩ ∧
    expectedPackage? ⟨"./p/src/org"⟩ path = some "" ∧
    Java.parser (fun _ => page) path "package org;" around = .accepted unit [⟨"./p//src"⟩] := by
  have declares : Java.packageDeclaration "package org;".toList page =
      some ("org", ⟨"identifier", true, false, false, false, 8, 11, ⟨0, 8⟩, ⟨0, 11⟩⟩) := by
    decide +kernel
  have reveals : sourceRoot? path "org" = some ⟨"./p//src"⟩ := by decide +kernel
  have accepted : Java.parser (fun _ => page) path "package org;" [] =
      .accepted unit [⟨"./p//src"⟩] := by
    rw [Java.parser_eq_accepted rfl declares (mismatch?_eq_none (List.forall_mem_nil _)), reveals]
    rfl
  have plain : '/' ∉ "org".toList := by decide
  obtain ⟨-, -, again, -⟩ := accepted_whenever_own_root_known accepted rfl plain
  exact ⟨accepted, rfl, plain, by decide +kernel, by decide +kernel,
    again around (by decide +kernel)⟩

end Layout

end DiagnosticServer
