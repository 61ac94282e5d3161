import DiagnosticServer.Proofs.SourceRoots

/-!
# Source roots shared by workers

Workers register roots and look at the roots side by side. A worker that registers a root holds a
lock: it looks whether the root is known, copies the list with the root behind it, and puts the copy
in the place of the list, each in a step of its own, while no other worker can register or look. If
it breaks off on the way the list is what it was before. `Registry` is that system, with a log of
the answers in the order in which they took effect. Every answer is the one that registering the
roots one after the other would give (`Sound`), which every step keeps.
-/

namespace DiagnosticServer

open SourceRoots

/-- What a worker was answered. -/
inductive Visit where
  /-- It registered a root, and was told whether the root was added to the list. -/
  | registered (root : Path) (added : Bool)
  /-- It looked at the roots, and was given those known then. -/
  | viewed (roots : SourceRoots)

namespace Visit

/-- The root that a worker registered. -/
def root? : Visit → Option Path
  | registered root _ => some root
  | viewed _ => none

/-- The root that a worker was told it had added. -/
def added? : Visit → Option Path
  | registered root true => some root
  | registered _ false | viewed _ => none

/-- The roots known after a worker was answered. -/
def effect (known : SourceRoots) : Visit → SourceRoots
  | registered root _ => known.register root
  | viewed _ => known

/-- An answer is right when these roots are known: a root is added if it is not known, and the roots
are shown as they are. -/
def IsRight (known : SourceRoots) : Visit → Prop
  | registered root added => added = !known.knows root
  | viewed roots => roots = known

end Visit

/-- A worker that holds the lock in order to register a root. -/
structure Writer (ω : Type) where
  /-- The worker. -/
  worker : ω
  /-- The root. -/
  root : Path
  /-- The copy of the list with the root behind it, if the worker has made it. -/
  copy : Option SourceRoots

/-- A list of roots that workers share. -/
structure Registry (ω : Type) where
  /-- The list. -/
  roots : SourceRoots
  /-- The worker that holds the lock, if one does. -/
  writer : Option (Writer ω)
  /-- What the workers were answered, in the order in which the answers took effect. -/
  log : List (ω × Visit)

namespace Registry

variable {ω : Type} {registry later : Registry ω} {log : List (ω × Visit)}

/-- No root is known, and no worker has come yet. -/
def bare : Registry ω := ⟨[], none, []⟩

/-- What one worker may do while the others wait. -/
inductive Step : Registry ω → Registry ω → Prop where
  /-- A worker takes the lock in order to register a root. -/
  | locks {roots : SourceRoots} {log : List (ω × Visit)} (worker : ω) (root : Path) :
      Step ⟨roots, none, log⟩ ⟨roots, some ⟨worker, root, none⟩, log⟩
  /-- It finds that the root is known, and releases the lock. -/
  | finds {roots : SourceRoots} {log : List (ω × Visit)} {worker : ω} {root : Path}
      (known : roots.knows root = true) :
      Step ⟨roots, some ⟨worker, root, none⟩, log⟩
        ⟨roots, none, log ++ [(worker, .registered root false)]⟩
  /-- It finds that the root is not known, and copies the list with the root behind it. -/
  | copies {roots : SourceRoots} {log : List (ω × Visit)} {worker : ω} {root : Path}
      (unknown : roots.knows root = false) :
      Step ⟨roots, some ⟨worker, root, none⟩, log⟩
        ⟨roots, some ⟨worker, root, some (roots ++ [root])⟩, log⟩
  /-- It puts the copy in the place of the list, and releases the lock. -/
  | swaps {roots copy : SourceRoots} {log : List (ω × Visit)} {worker : ω} {root : Path} :
      Step ⟨roots, some ⟨worker, root, some copy⟩, log⟩
        ⟨copy, none, log ++ [(worker, .registered root true)]⟩
  /-- It breaks off, and others can go on. -/
  | fails {roots : SourceRoots} {log : List (ω × Visit)} {writer : Writer ω} :
      Step ⟨roots, some writer, log⟩ ⟨roots, none, log⟩
  /-- A worker looks at the roots while no other registers one. -/
  | views {roots : SourceRoots} {log : List (ω × Visit)} (worker : ω) :
      Step ⟨roots, none, log⟩ ⟨roots, none, log ++ [(worker, .viewed roots)]⟩

/-- One registry becomes another in steps of any workers. -/
abbrev Becomes : Registry ω → Registry ω → Prop := Relation.ReflTransGen Step

/-- A worker that does not break off registers a root as `register` says, and is told whether it was
known. -/
theorem becomes_register (roots : SourceRoots) (log : List (ω × Visit)) (worker : ω) (root : Path) :
    Becomes ⟨roots, none, log⟩ ⟨roots.register root, none,
      log ++ [(worker, .registered root (!roots.knows root))]⟩ := by
  refine .head (.locks worker root) ?_
  unfold register
  by_cases known : roots.knows root = true
  · rw [if_pos known, known]
    exact .single (.finds known)
  · rw [if_neg known, Bool.eq_false_iff.2 known]
    exact .head (.copies (Bool.eq_false_iff.2 known)) (.single .swaps)

/-! ## What every step keeps -/

/-- The roots that workers registered, in the order of the log. -/
def registered (log : List (ω × Visit)) : List Path := log.filterMap fun entry => entry.2.root?

/-- The roots that workers were told they had added, in the order of the log. -/
def added (log : List (ω × Visit)) : List Path := log.filterMap fun entry => entry.2.added?

/-- A log accounts for the roots known after it. -/
structure Accounts (log : List (ω × Visit)) (roots : SourceRoots) : Prop where
  /-- They are what comes of registering the roots of the log one after the other. -/
  listed : roots = registerAll [] (registered log)
  /-- They are the ones that were reported as added. -/
  told : roots = added log
  /-- Every answer was right for the roots registered before it. -/
  right : ∀ before worker visit, before ++ [(worker, visit)] <+: log →
    visit.IsRight (registerAll [] (registered before))

/-- A log with one more answer that is right accounts for what the answer does to the roots. -/
theorem Accounts.append {roots : SourceRoots} {visit : Visit} (accounts : Accounts log roots)
    (worker : ω) (right : visit.IsRight roots) :
    Accounts (log ++ [(worker, visit)]) (visit.effect roots) := by
  have behind : registered (log ++ [(worker, visit)]) = registered log ++ visit.root?.toList := by
    unfold registered
    rw [List.filterMap_append]
    cases visit <;> rfl
  have told : added (log ++ [(worker, visit)]) = added log ++ visit.added?.toList := by
    unfold added
    rw [List.filterMap_append]
    rcases visit with ⟨root, _ | _⟩ | roots <;> rfl
  refine ⟨?_, ?_, fun before other answer within => ?_⟩
  · rw [behind, registerAll_append, ← accounts.listed]
    cases visit <;> rfl
  · rw [told, ← accounts.told]
    rcases visit with ⟨root, isNew⟩ | view
    · -- The root was added to the list if and only if its worker was told so.
      obtain rfl : isNew = !roots.knows root := right
      show register roots root = _
      unfold register
      by_cases known : roots.knows root = true
      · rw [if_pos known, known]
        exact (List.append_nil roots).symm
      · rw [if_neg known, Bool.eq_false_iff.2 known]
        rfl
    · exact (List.append_nil roots).symm
  · rcases List.prefix_concat_iff.1 within with last | earlier
    · obtain ⟨rfl, same⟩ := List.append_inj' last rfl
      obtain ⟨-, rfl⟩ := Prod.mk.inj (List.singleton_inj.1 same)
      exact accounts.listed ▸ right
    · exact accounts.right before other answer earlier

/-- What holds of a registry at any time. -/
structure Sound (registry : Registry ω) : Prop where
  /-- The log accounts for the list. -/
  accounts : Accounts registry.log registry.roots
  /-- A copy differs from the list by a root that is not known. -/
  copied : ∀ writer copy, registry.writer = some writer → writer.copy = some copy →
    registry.roots.knows writer.root = false ∧ copy = registry.roots ++ [writer.root]

/-- A registry stays sound with every step. -/
theorem Sound.step (sound : Sound registry) (step : Step registry later) : Sound later := by
  obtain ⟨accounts, copied⟩ := sound
  cases step with
  | locks worker root =>
    refine ⟨accounts, fun writer copy holds made => ?_⟩
    obtain rfl := Option.some.inj holds
    cases made
  | @finds roots log worker root known =>
    have right : (Visit.registered root false).IsRight roots := by
      show false = !_
      rw [known]
      rfl
    have same : (Visit.registered root false).effect roots = roots := if_pos known
    exact ⟨same ▸ accounts.append worker right, fun writer copy holds => nomatch holds⟩
  | copies unknown =>
    refine ⟨accounts, fun writer copy holds made => ?_⟩
    obtain rfl := Option.some.inj holds
    obtain rfl := Option.some.inj made
    exact ⟨unknown, rfl⟩
  | @swaps roots copy log worker root =>
    -- No other worker has changed the list since it was copied.
    have unknown : roots.knows root = false := (copied _ copy rfl rfl).1
    have made : copy = roots ++ [root] := (copied _ copy rfl rfl).2
    have right : (Visit.registered root true).IsRight roots := by
      show true = !_
      rw [unknown]
      rfl
    have same : (Visit.registered root true).effect roots = copy := by
      rw [made]
      exact if_neg (Bool.eq_false_iff.1 unknown)
    exact ⟨same ▸ accounts.append worker right, fun writer copy holds => nomatch holds⟩
  | fails => exact ⟨accounts, fun writer copy holds => nomatch holds⟩
  | views worker => exact ⟨accounts.append worker rfl, fun writer copy holds => nomatch holds⟩

/-- A registry is sound whatever the workers have done. -/
theorem sound_of_becomes (reached : Becomes bare registry) : Sound registry := by
  induction reached with
  | refl =>
    refine ⟨⟨rfl, rfl, fun before worker visit within => ?_⟩,
      fun writer copy holds => nomatch holds⟩
    exact absurd (List.prefix_nil.1 within) (List.concat_ne_nil _ _)
  | tail _ step ih => exact ih.step step

/-- No step takes an answer back. -/
theorem log_prefix_of_becomes (goesOn : Becomes registry later) : registry.log <+: later.log := by
  induction goesOn with
  | refl => exact List.prefix_refl _
  | tail _ step ih =>
    refine ih.trans ?_
    cases step with
    | locks | copies | fails => exact List.prefix_refl _
    | finds | swaps | views => exact List.prefix_append _ _

/-! ## Answers and snapshots -/

/-- A worker is told that it has added a root exactly if no worker had registered that root, however
spelled. -/
theorem Accounts.isNew_iff {roots : SourceRoots} (accounts : Accounts log roots)
    {before : List (ω × Visit)} {worker : ω} {root : Path} {isNew : Bool}
    (within : before ++ [(worker, .registered root isNew)] <+: log) :
    isNew = true ↔ ∀ other ∈ registered before, root.same other = false := by
  have right : isNew = !(registerAll [] (registered before)).knows root :=
    accounts.right before worker _ within
  rw [right, knows_registerAll_eq, List.nil_append, Bool.not_eq_true', knows, List.any_eq_false]
  exact forall₂_congr fun _ _ => Bool.eq_false_iff.symm

/-- A root is reported as added once, however often it is registered and however it is spelled. -/
theorem Accounts.countP_added {roots : SourceRoots} (accounts : Accounts log roots) {root : Path}
    (among : root ∈ registered log) : (added log).countP root.same = 1 := by
  have distinct : roots.Pairwise fun a b => a.same b = false := by
    rw [accounts.listed]
    exact pairwise_registerAll _ List.Pairwise.nil
  have known : roots.knows root = true := by
    rw [accounts.listed, knows_registerAll_eq, List.nil_append]
    exact List.any_eq_true.2 ⟨root, among, beq_self_eq_true _⟩
  rw [← accounts.told]
  exact countP_same distinct known

/-- What a worker is shown is the start of what any worker is shown later. -/
theorem Accounts.view_prefix {roots view newer : SourceRoots} (accounts : Accounts log roots)
    {before between : List (ω × Visit)} {worker other : ω}
    (within : before ++ [(worker, .viewed view)] ++ between ++ [(other, .viewed newer)] <+: log) :
    view <+: newer := by
  have first : view = registerAll [] (registered before) := by
    refine accounts.right before worker (.viewed view) (List.IsPrefix.trans ?_ within)
    rw [List.append_assoc]
    exact List.prefix_append _ _
  have second : newer =
      registerAll [] (registered (before ++ ([(worker, .viewed view)] ++ between))) := by
    refine accounts.right _ other (.viewed newer) ?_
    rwa [← List.append_assoc]
  have parts : registered (before ++ ([(worker, .viewed view)] ++ between)) =
      registered before ++ registered ([(worker, .viewed view)] ++ between) :=
    List.filterMap_append
  rw [second, parts, registerAll_append, ← first, registerAll_eq view]
  exact List.prefix_append _ _

/-- Let any workers register roots and look at the roots in steps that come between each other in
any order. The list then has the registered paths without those that are the same as an earlier one,
as they were first spelled, and no two of them are the same. A worker is told that it has added a
root exactly if no earlier one had registered it, so this is told once for each root, whatever its
spellings, and the list is what was reported as added. A worker is shown the list of its time, which
is the start of every list that is shown later. If a path has an enclosing root in the former, it
has one in the latter, which lies in the former one. Nothing that has been answered is changed by
what the workers do later. -/
theorem registry_lists_first_occurrences (reached : Becomes bare registry) :
    registry.roots = registerAll [] (registered registry.log) ∧
    registry.roots = novel [] (registered registry.log) ∧
    registry.roots = added registry.log ∧
    (registry.roots.Pairwise fun a b => a.same b = false) ∧
    (∀ before worker root isNew,
      before ++ [(worker, .registered root isNew)] <+: registry.log →
        (isNew = true ↔ ∀ other ∈ registered before, root.same other = false)) ∧
    (∀ root ∈ registered registry.log, (added registry.log).countP root.same = 1) ∧
    (∀ before worker view, before ++ [(worker, .viewed view)] <+: registry.log →
      view = novel [] (registered before)) ∧
    (∀ before worker (view : SourceRoots) between other (newer : SourceRoots),
      before ++ [(worker, .viewed view)] ++ between ++ [(other, .viewed newer)] <+: registry.log →
        view <+: newer ∧ ∀ path root, view.enclosing path = some root →
          ∃ deeper, newer.enclosing path = some deeper ∧ deeper.startsWith root = true) ∧
    ∀ later, Becomes registry later → registry.log <+: later.log := by
  have accounts := (sound_of_becomes reached).accounts
  have novelOf : ∀ paths, registerAll [] paths = novel [] paths := fun paths =>
    registerAll_eq [] paths
  refine ⟨accounts.listed, ?_, accounts.told, ?_, ?_, ?_, ?_, ?_, ?_⟩
  · rw [← novelOf]
    exact accounts.listed
  · rw [accounts.listed]
    exact pairwise_registerAll _ List.Pairwise.nil
  · intro before worker root isNew within
    exact accounts.isNew_iff within
  · intro root among
    exact accounts.countP_added among
  · intro before worker view within
    rw [← novelOf]
    exact accounts.right before worker (.viewed view) within
  · intro before worker view between other newer within
    have grown := accounts.view_prefix within
    exact ⟨grown, fun path root found => enclosing_mono (fun _ among => grown.subset among) found⟩
  · intro later goesOn
    exact log_prefix_of_becomes goesOn

/-- Two workers register one root in two spellings, and the first breaks off once while it registers
another root inside. The root is added once, and what the second worker is shown at the end starts
with what it was shown before. -/
theorem root_added_once_in_two_spellings : ∃ registry : Registry Bool,
    Becomes bare registry ∧
    registry.roots = [⟨"/src"⟩, ⟨"/src/inner"⟩] ∧
    registered registry.log = [⟨"/src"⟩, ⟨"/src/"⟩, ⟨"/src/inner"⟩] ∧
    (added registry.log).countP (Path.mk "/src/").same = 1 ∧
    [⟨"/src"⟩] <+: registry.roots := by
  have reached : Becomes (bare : Registry Bool)
      ⟨[⟨"/src"⟩, ⟨"/src/inner"⟩], none,
        [(false, .registered ⟨"/src"⟩ true), (true, .viewed [⟨"/src"⟩]),
          (true, .registered ⟨"/src/"⟩ false), (false, .registered ⟨"/src/inner"⟩ true),
          (true, .viewed [⟨"/src"⟩, ⟨"/src/inner"⟩])]⟩ := by
    refine .head (.locks false ⟨"/src"⟩) (.head (.copies rfl) (.head .swaps ?_))
    refine .head (.views true) ?_
    refine .head (.locks true ⟨"/src/"⟩) (.head (.finds (by decide +kernel)) ?_)
    refine .head (.locks false ⟨"/src/inner"⟩) (.head (.copies (by decide +kernel)) ?_)
    refine .head .fails ?_
    refine .head (.locks false ⟨"/src/inner"⟩) (.head (.copies (by decide +kernel)) ?_)
    exact .head .swaps (.single (.views true))
  obtain ⟨-, -, -, -, -, once, -, grows, -⟩ := registry_lists_first_occurrences reached
  refine ⟨_, reached, rfl, rfl, once ⟨"/src/"⟩ (by decide), ?_⟩
  exact (grows [_] true _ [_, _] true _ (List.prefix_refl _)).1

end Registry

end DiagnosticServer
