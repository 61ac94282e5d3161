import Mathlib.Data.List.Induction
import Mathlib.Logic.Relation
import DiagnosticServer.SourceRoots

/-!
# Known and enclosing source roots

What matters of a list of source roots is which roots are known, in whatever spelling, order and
number. Registering makes a root known and keeps different roots different. Registering several adds
those of them that are the same as no root before them (`registerAll_eq`). The roots that hold a
path are all on the way to it, so that of two of them one lies in the other, and those of one depth
are one root: the deepest one lies in all the others (`enclosing_spec`), and is the same one
whatever the order (`enclosing_congr`).
-/

namespace DiagnosticServer

namespace Path

variable {path a b : Path}

/-- Two paths are the same if they have the same components. -/
theorem same_iff : a.same b = true ↔ a.components = b.components := beq_iff_eq

/-- A path lies in another one if its components start with those of the other. -/
theorem startsWith_iff : a.startsWith b = true ↔ b.components <+: a.components :=
  List.isPrefixOf_iff_prefix

/-- Of two places on the way to a path the deeper one lies in the other. -/
theorem startsWith_of_depth_le (holdsA : path.startsWith a = true)
    (holdsB : path.startsWith b = true) (le : b.depth ≤ a.depth) : a.startsWith b = true :=
  startsWith_iff.2
    (List.prefix_of_prefix_length_le (startsWith_iff.1 holdsB) (startsWith_iff.1 holdsA) le)

/-- Two paths that lie in each other are the same. -/
theorem components_eq_of_startsWith (inside : a.startsWith b = true)
    (around : b.startsWith a = true) : a.components = b.components :=
  (startsWith_iff.1 around).eq_of_length_le (startsWith_iff.1 inside).length_le

/-- Whether a path lies in another one does not depend on how that one is spelled. -/
theorem startsWith_congr (alike : a.components = b.components) :
    path.startsWith a = path.startsWith b := by
  rw [startsWith, startsWith, alike]

end Path

namespace SourceRoots

variable {roots others : SourceRoots} {root other path : Path}

/-! ## Registering -/

/-- A root that was known or has just been registered is known. -/
theorem knows_register : (roots.register other).knows root = true ↔
    roots.knows root = true ∨ root.same other = true := by
  unfold register
  split
  · rename_i known
    refine ⟨.inl, fun h => h.elim id fun same => ?_⟩
    obtain ⟨first, among, twin⟩ := List.any_eq_true.1 known
    refine List.any_eq_true.2 ⟨first, among, ?_⟩
    exact beq_iff_eq.2 ((eq_of_beq same).trans (eq_of_beq twin))
  · simp [knows]

/-- What is registered is what was known and perhaps the root itself. -/
theorem mem_of_mem_register (among : root ∈ roots.register other) :
    root ∈ roots ∨ root = other := by
  unfold register at among
  split at among
  · exact .inl among
  · simpa using among

/-- What is registered one after the other is what was known and some of the roots themselves. -/
theorem mem_of_mem_registerAll {more : List Path} (among : root ∈ roots.registerAll more) :
    root ∈ roots ∨ root ∈ more := by
  induction more generalizing roots with
  | nil => exact .inl among
  | cons first rest ih =>
    rcases ih among with before | later
    · refine (mem_of_mem_register before).imp_right fun same => ?_
      rw [same]
      exact List.mem_cons_self
    · exact .inr (List.mem_cons_of_mem _ later)

/-- Registering keeps different roots different. -/
theorem pairwise_register (distinct : roots.Pairwise fun a b => a.same b = false) :
    (roots.register other).Pairwise fun a b => a.same b = false := by
  unfold register
  split
  · exact distinct
  · rename_i unknown
    refine List.pairwise_append.2 ⟨distinct, List.pairwise_singleton _ _, fun a among b last => ?_⟩
    rw [List.mem_singleton.1 last, Bool.eq_false_iff]
    intro same
    exact unknown (List.any_eq_true.2 ⟨a, among, beq_iff_eq.2 (eq_of_beq same).symm⟩)

/-- Among different roots a known one is found once. -/
theorem countP_same (distinct : roots.Pairwise fun a b => a.same b = false)
    (known : roots.knows root = true) : roots.countP root.same = 1 := by
  induction roots with
  | nil => cases known
  | cons first rest ih =>
    obtain ⟨apart, later⟩ := List.pairwise_cons.1 distinct
    rw [List.countP_cons]
    by_cases same : root.same first = true
    · -- A second one would be the same as the first.
      have none : rest.countP root.same = 0 := by
        refine List.countP_eq_zero.2 fun other among twin => ?_
        have alike : first.same other = true :=
          beq_iff_eq.2 ((eq_of_beq same).symm.trans (eq_of_beq twin))
        rw [apart other among] at alike
        cases alike
      rw [none, if_pos same]
    · rw [if_neg same, ih later]
      simpa [knows, same] using known

/-- A root is known if one in the list has its components. -/
theorem knows_iff : roots.knows root = true ↔ ∃ known ∈ roots, root.components = known.components :=
  List.any_eq_true.trans (exists_congr fun _ => and_congr_right fun _ => Path.same_iff)

/-- What was known stays known when several roots are registered. -/
theorem knows_registerAll (more : List Path) (known : roots.knows root = true) :
    (roots.registerAll more).knows root = true := by
  induction more generalizing roots with
  | nil => exact known
  | cons first rest ih => exact ih (knows_register.2 (.inl known))

/-- Different roots stay different when several are registered. -/
theorem pairwise_registerAll (more : List Path)
    (distinct : roots.Pairwise fun a b => a.same b = false) :
    (roots.registerAll more).Pairwise fun a b => a.same b = false := by
  induction more generalizing roots with
  | nil => exact distinct
  | cons first rest ih => exact ih (pairwise_register distinct)

/-- Of two lists of roots the second is registered after the first. -/
theorem registerAll_append (first second : List Path) :
    roots.registerAll (first ++ second) = (roots.registerAll first).registerAll second :=
  List.foldl_append

/-- Those of several paths that are the same as no known root and no path before them. -/
def novel (known : SourceRoots) (more : List Path) : List Path :=
  (more.zipIdx.filter fun entry => !knows (known ++ more.take entry.2) entry.1).map Prod.fst

/-- A path behind the others is novel unless it is the same as a known root or one of them. -/
theorem novel_append_singleton (known : SourceRoots) (more : List Path) (root : Path) :
    novel known (more ++ [root]) =
      novel known more ++ if knows (known ++ more) root = true then [] else [root] := by
  -- What stands before the others does not change.
  have unchanged : ∀ entry ∈ more.zipIdx,
      (!knows (known ++ (more ++ [root]).take entry.2) entry.1) =
        !knows (known ++ more.take entry.2) entry.1 := fun entry among => by
    have inside : entry.2 < more.length := List.snd_lt_of_mem_zipIdx among
    rw [List.take_append_of_le_length (Nat.le_of_lt inside)]
  unfold novel
  rw [List.zipIdx_append, List.filter_append, List.map_append, List.filter_congr unchanged]
  congr 1
  rw [Nat.zero_add, List.zipIdx_singleton, List.filter_cons, List.take_left, List.filter_nil]
  by_cases same : knows (known ++ more) root = true
  · rw [if_pos same, same]
    rfl
  · rw [if_neg same, Bool.eq_false_iff.2 same]
    rfl

/-- A root is known after several have been registered if it was known or is the same as one of
them. -/
theorem knows_registerAll_eq (more : List Path) :
    (roots.registerAll more).knows root = knows (roots ++ more) root := by
  induction more generalizing roots with
  | nil => rw [List.append_nil]; rfl
  | cons first rest ih =>
    have step : (roots.registerAll (first :: rest)).knows root =
        knows (roots.register first ++ rest) root := ih
    have now : (roots.register first).knows root = (roots.knows root || root.same first) := by
      rw [Bool.eq_iff_iff, knows_register, Bool.or_eq_true]
    rw [step]
    unfold knows at now ⊢
    rw [List.any_append, now, List.any_append, List.any_cons, Bool.or_assoc]

/-- Registering several roots adds those that are novel, in their order and as they are spelled. -/
theorem registerAll_eq (roots : SourceRoots) (more : List Path) :
    roots.registerAll more = roots ++ novel roots more := by
  induction more using List.reverseRecOn with
  | nil => exact (List.append_nil roots).symm
  | append_singleton more root ih =>
    have last : roots.registerAll (more ++ [root]) = (roots.registerAll more).register root :=
      registerAll_append more [root]
    rw [last, register, knows_registerAll_eq, ih, novel_append_singleton]
    split
    · rw [List.append_nil]
    · rw [List.append_assoc]

/-- A change to a list of roots that does not change which ones are known: they are put in another
order, one of them is listed once more, or one of them is spelled otherwise. -/
inductive Recast : SourceRoots → SourceRoots → Prop where
  /-- The roots are put in another order. -/
  | reordered {roots others : SourceRoots} (perm : roots.Perm others) : Recast roots others
  /-- A root is listed once more. -/
  | repeated {roots : SourceRoots} {root : Path} (among : root ∈ roots) :
      Recast roots (roots ++ [root])
  /-- A root is spelled otherwise. -/
  | respelled {before after : SourceRoots} {root other : Path} (same : root.same other = true) :
      Recast (before ++ root :: after) (before ++ other :: after)

/-- Recasting a list of roots does not change which ones are known. -/
theorem Recast.knows_eq (recast : Recast roots others) (root : Path) :
    roots.knows root = others.knows root := by
  cases recast with
  | reordered perm => exact perm.any_eq
  | @repeated _ twice among =>
    unfold knows
    rw [List.any_append, List.any_cons, List.any_nil, Bool.or_false]
    cases same : root.same twice with
    | false => rw [Bool.or_false]
    | true => rw [Bool.or_true, List.any_eq_true.2 ⟨twice, among, same⟩]
  | @respelled before after old new same =>
    have alike : root.same old = root.same new := by
      unfold Path.same
      rw [Path.same_iff.1 same]
    simp only [knows, List.any_append, List.any_cons, alike]

/-- Nor does recasting it several times, forth or back. -/
theorem knows_eq_of_recast (recast : Relation.EqvGen Recast roots others) (root : Path) :
    roots.knows root = others.knows root := by
  induction recast with
  | rel _ _ recast => exact recast.knows_eq root
  | refl _ => rfl
  | symm _ _ _ ih => exact ih.symm
  | trans _ _ _ _ _ first second => exact first.trans second

/-! ## The enclosing root -/

/-- The roots that hold a path are roots that it lies in. -/
theorem mem_holding : root ∈ roots.holding path ↔ root ∈ roots ∧ path.startsWith root = true :=
  List.mem_filter

/-- A list has a deepest path unless it is empty. -/
theorem deepest_eq_none_iff {paths : List Path} : deepest paths = none ↔ paths = [] := by
  cases paths with
  | nil => exact iff_of_true rfl rfl
  | cons first rest =>
    refine iff_of_false ?_ (List.cons_ne_nil _ _)
    unfold deepest
    split
    · split <;> exact nofun
    · exact nofun

/-- The deepest of several paths is one of them, and none of them is deeper. -/
theorem deepest_spec {paths : List Path} (h : deepest paths = some path) :
    path ∈ paths ∧ ∀ other ∈ paths, other.depth ≤ path.depth := by
  induction paths generalizing path with
  | nil => cases h
  | cons first rest ih =>
    rw [deepest] at h
    cases later : deepest rest with
    | none =>
      rw [later] at h
      cases h
      rw [deepest_eq_none_iff.1 later]
      exact ⟨List.mem_singleton_self _, List.forall_mem_singleton.2 (Nat.le_refl _)⟩
    | some found =>
      obtain ⟨among, greatest⟩ := ih later
      rw [later] at h
      simp only at h
      split at h
      · rename_i le
        cases h
        exact ⟨List.mem_cons_of_mem _ among, List.forall_mem_cons.2 ⟨le, greatest⟩⟩
      · rename_i gt
        cases h
        refine ⟨List.mem_cons_self, List.forall_mem_cons.2 ⟨Nat.le_refl _, fun other inside => ?_⟩⟩
        exact Nat.le_trans (greatest other inside) (Nat.le_of_lt (Nat.lt_of_not_le gt))

/-- A path has an enclosing root unless no root holds it. -/
theorem enclosing_eq_none_iff :
    roots.enclosing path = none ↔ ∀ root ∈ roots, path.startsWith root = false := by
  unfold enclosing
  rw [deepest_eq_none_iff, holding, List.filter_eq_nil_iff]
  exact forall₂_congr fun _ _ => Bool.eq_false_iff.symm

/-- The enclosing root of a path is a root that holds it, and lies in every other one that does. -/
theorem enclosing_spec (h : roots.enclosing path = some root) :
    root ∈ roots ∧ path.startsWith root = true ∧
      ∀ other ∈ roots, path.startsWith other = true → root.startsWith other = true := by
  obtain ⟨among, greatest⟩ := deepest_spec h
  obtain ⟨known, holds⟩ := mem_holding.1 among
  exact ⟨known, holds, fun other also holdsToo =>
    Path.startsWith_of_depth_le holds holdsToo (greatest other (mem_holding.2 ⟨also, holdsToo⟩))⟩

/-- With more roots known a path keeps an enclosing root, which lies in the former one. -/
theorem enclosing_mono (more : ∀ root ∈ roots, root ∈ others)
    (h : roots.enclosing path = some root) :
    ∃ deeper, others.enclosing path = some deeper ∧ deeper.startsWith root = true := by
  obtain ⟨known, holds, -⟩ := enclosing_spec h
  rcases found : others.enclosing path with _ | deeper
  · have outside := enclosing_eq_none_iff.1 found root (more root known)
    rw [holds] at outside
    cases outside
  · obtain ⟨-, -, deepest⟩ := enclosing_spec found
    exact ⟨deeper, rfl, deepest root (more root known) holds⟩

/-- A root in a list is spelled in some way in every list that knows the same roots. -/
theorem exists_twin (same : ∀ root, roots.knows root = others.knows root) (known : root ∈ roots) :
    ∃ twin ∈ others, twin.components = root.components := by
  have also : others.knows root = true := same root ▸ knows_iff.2 ⟨root, known, rfl⟩
  obtain ⟨twin, among, alike⟩ := knows_iff.1 also
  exact ⟨twin, among, alike.symm⟩

/-- Lists that know the same roots have the same enclosing root for a path, up to its spelling. -/
theorem enclosing_congr (same : ∀ root, roots.knows root = others.knows root) (path : Path) :
    (others.enclosing path).map Path.components = (roots.enclosing path).map Path.components := by
  cases here : roots.enclosing path with
  | none =>
    have none : others.enclosing path = none := enclosing_eq_none_iff.2 fun other among => by
      obtain ⟨twin, known, alike⟩ := exists_twin (fun root => (same root).symm) among
      rw [← Path.startsWith_congr alike]
      exact enclosing_eq_none_iff.1 here twin known
    rw [none]
  | some root =>
    obtain ⟨known, inside, deepest⟩ := enclosing_spec here
    obtain ⟨twin, among, alike⟩ := exists_twin same known
    cases there : others.enclosing path with
    | none =>
      have outside := enclosing_eq_none_iff.1 there twin among
      rw [Path.startsWith_congr alike, inside] at outside
      cases outside
    | some other =>
      -- Each of the two enclosing roots lies in the other.
      obtain ⟨known', inside', deepest'⟩ := enclosing_spec there
      obtain ⟨twin', among', alike'⟩ := exists_twin (fun root => (same root).symm) known'
      have below : root.startsWith other = true := by
        rw [← Path.startsWith_congr alike']
        exact deepest twin' among' ((Path.startsWith_congr alike').trans inside')
      have above : other.startsWith root = true := by
        rw [← Path.startsWith_congr alike]
        exact deepest' twin among ((Path.startsWith_congr alike).trans inside)
      exact congrArg some (Path.components_eq_of_startsWith above below)

end SourceRoots

end DiagnosticServer
