import Mathlib.Logic.Relation
import Mathlib.Tactic.Tauto
import DiagnosticServer.Proofs.Java.CompilationUnit
import DiagnosticServer.Proofs.Layout.Packages
import DiagnosticServer.Proofs.Parse.Containment
import DiagnosticServer.Proofs.Tree.Nodes

/-!
# Parsing a project in any order

Parses side by side share the source roots: each one sees the roots that are known when it begins,
and makes those that its file reveals known when it is over. What one parse is told thus depends on
which others were over before it began. `Bench` is that system, for any parser and any files, one
step at a time. In a project in which each file lies where its package says, and in no root but its
own, the order does not show: whatever is known at any time are roots of the project, each root that
holds a file is the file's own in some spelling, and that one expects the file's package. This is
the invariant `Orderly`, which every step keeps.
-/

namespace DiagnosticServer

/-! ## Parses side by side -/

namespace Parse

/-- A file as a parse is given it. -/
structure Source where
  /-- The file. -/
  id : Identity
  /-- The text open in the editor, if it is open there. -/
  overlay : Option String

/-- How far a parse has come. -/
inductive Headway (α : Type) where
  /-- The parser is running. -/
  | running (call : Call)
  /-- The parser has ended, and these of the roots it revealed are still to be registered. -/
  | telling (roots : List Path) (outcome : Outcome α)

/-- Parses side by side. Each is known by the file it is about; a file may have several. -/
structure Bench (ι α : Type) where
  /-- The source roots known now. -/
  roots : SourceRoots
  /-- The parses under way. -/
  active : List (ι × Headway α)
  /-- What came of the parses that are over. -/
  done : List (ι × Outcome α)

namespace Bench

variable {ι α : Type} {parser : Parser α} {files : FileSystem} {source : ι → Source}

/-- Nothing has been parsed yet. -/
def bare : Bench ι α := ⟨[], [], []⟩

/-- What one parse may do while the others wait. -/
inductive Step (parser : Parser α) (files : FileSystem) (source : ι → Source) :
    Bench ι α → Bench ι α → Prop where
  /-- A parse begins with the roots known now. -/
  | begins {bench : Bench ι α} {i : ι} {call : Call}
      (ready : (prepare files bench.roots (source i).id (source i).overlay :
        Except (Outcome α) Call) = .ok call) :
      Step parser files source bench { bench with active := bench.active ++ [(i, .running call)] }
  /-- A file cannot be read. -/
  | fails {bench : Bench ι α} {i : ι} {outcome : Outcome α}
      (unread : prepare files bench.roots (source i).id (source i).overlay = .error outcome) :
      Step parser files source bench { bench with done := bench.done ++ [(i, outcome)] }
  /-- A parser ends. -/
  | returns {roots : SourceRoots} {before after : List (ι × Headway α)} {i : ι} {call : Call}
      {done : List (ι × Outcome α)} :
      Step parser files source ⟨roots, before ++ (i, .running call) :: after, done⟩
        ⟨roots, before ++ (i, .telling (run parser (source i).id call).revealed
          (run parser (source i).id call)) :: after, done⟩
  /-- A root is registered. -/
  | registers {roots : SourceRoots} {before after : List (ι × Headway α)} {i : ι} {root : Path}
      {rest : List Path} {outcome : Outcome α} {done : List (ι × Outcome α)} :
      Step parser files source
        ⟨roots, before ++ (i, .telling (root :: rest) outcome) :: after, done⟩
        ⟨roots.register root, before ++ (i, .telling rest outcome) :: after, done⟩
  /-- A parse is over. -/
  | ends {roots : SourceRoots} {before after : List (ι × Headway α)} {i : ι}
      {outcome : Outcome α} {done : List (ι × Outcome α)} :
      Step parser files source ⟨roots, before ++ (i, .telling [] outcome) :: after, done⟩
        ⟨roots, before ++ after, done ++ [(i, outcome)]⟩

/-- One bench becomes another in steps, in any order. -/
abbrev Becomes (parser : Parser α) (files : FileSystem) (source : ι → Source) :
    Bench ι α → Bench ι α → Prop :=
  Relation.ReflTransGen (Step parser files source)

/-- A parser that has ended can register its roots, and then the parse is over. -/
theorem becomes_of_telling (roots : SourceRoots) (before after : List (ι × Headway α)) (i : ι)
    (more : List Path) (outcome : Outcome α) (done : List (ι × Outcome α)) :
    Becomes parser files source ⟨roots, before ++ (i, .telling more outcome) :: after, done⟩
      ⟨roots.registerAll more, before ++ after, done ++ [(i, outcome)]⟩ := by
  induction more generalizing roots with
  | nil => exact .single .ends
  | cons root rest ih => exact .head .registers (ih (roots.register root))

/-- A parser that runs can end, and then the parse. -/
theorem becomes_of_running (roots : SourceRoots) (before after : List (ι × Headway α)) (i : ι)
    (call : Call) (done : List (ι × Outcome α)) :
    Becomes parser files source ⟨roots, before ++ (i, .running call) :: after, done⟩
      ⟨roots.registerAll (run parser (source i).id call).revealed, before ++ after,
        done ++ [(i, run parser (source i).id call)]⟩ :=
  .head .returns (becomes_of_telling roots before after i _ _ done)

/-- A parse that nothing comes between goes as `Parse.file` says. -/
theorem becomes_file (bench : Bench ι α) (i : ι) :
    Becomes parser files source bench
      ⟨(file parser files bench.roots (source i).id (source i).overlay).2, bench.active,
        bench.done ++
          [(i, (file parser files bench.roots (source i).id (source i).overlay).1)]⟩ := by
  unfold file
  cases read : (prepare files bench.roots (source i).id (source i).overlay :
      Except (Outcome α) Call) with
  | error outcome => exact .single (.fails read)
  | ok call =>
    refine .head (.begins read) ?_
    simpa using becomes_of_running bench.roots bench.active [] i call bench.done

/-- A parse that has begun can be brought to its end. -/
theorem becomes_done {bench : Bench ι α} {i : ι} {progress : Headway α}
    (among : (i, progress) ∈ bench.active) :
    ∃ later, Becomes parser files source bench later ∧ ∃ outcome, (i, outcome) ∈ later.done := by
  obtain ⟨roots, active, done⟩ := bench
  obtain ⟨before, after, rfl⟩ := List.append_of_mem among
  cases progress with
  | running call =>
    exact ⟨_, becomes_of_running roots before after i call done, _,
      List.mem_append_right _ List.mem_cons_self⟩
  | telling more outcome =>
    exact ⟨_, becomes_of_telling roots before after i more outcome done, _,
      List.mem_append_right _ List.mem_cons_self⟩

end Bench

end Parse

/-! ## Projects -/

namespace Layout

open Java Parse

/-- A file of a project, with what is said of it. -/
structure Member where
  /-- The file as a parse is given it. -/
  source : Source
  /-- Its text. -/
  text : String
  /-- The package that it declares. -/
  package : String
  /-- The source root that it lies in. -/
  root : Path

/-- What comes of parsing a file that lies where its package says. -/
def Member.outcome (member : Member) (grammar : Grammar) : Outcome CompilationUnit :=
  .success ⟨grammar member.text, some member.package⟩ [member.root]

/-- A file that can be read, follows the grammar, and lies where its package says. -/
structure Member.Sited (grammar : Grammar) (files : FileSystem) (member : Member) : Prop where
  /-- The text is the one open in the editor, or else that of the file. -/
  reads : member.source.overlay = some member.text ∨
    member.source.overlay = none ∧ files.load member.source.id.path = .ok member.text
  /-- The text follows the grammar. -/
  sound : (grammar member.text).IsSound
  /-- It declares its package. -/
  declares : ∃ name,
    packageDeclaration member.text.toList (grammar member.text) = some (member.package, name)
  /-- The package is no path. -/
  plain : '/' ∉ member.package.toList
  /-- The file reveals its root. -/
  reveals : sourceRoot? member.source.id.path member.package = some member.root

/-- A project in which every file lies where its package says, and in no root but its own. -/
structure Consistent {ι : Type} (grammar : Grammar) (files : FileSystem) (project : ι → Member) :
    Prop where
  /-- Every file lies where its package says. -/
  sited : ∀ i, (project i).Sited grammar files
  /-- Only a file's own root holds it. -/
  apart : ∀ i j, (project i).source.id.path.startsWith (project j).root = true →
    (project j).root.same (project i).root = true

section

variable {ι : Type} {grammar : Grammar} {files : FileSystem} {project : ι → Member}
  {bench later : Bench ι CompilationUnit}

/-- The text of a file of a project is handed to the parser, with the roots known then. -/
theorem Member.Sited.prepare_eq {member : Member} (sited : member.Sited grammar files)
    (roots : SourceRoots) :
    (prepare files roots member.source.id member.source.overlay :
      Except (Outcome CompilationUnit) Call) = .ok ⟨member.text, roots⟩ :=
  prepare_of_finds sited.reads

/-- Whatever roots of the project are known, the parser accepts a file of it. -/
theorem Consistent.run_eq (consistent : Consistent grammar files project)
    (marked : ∀ text, (grammar text).IsMarked) (i : ι) {roots : SourceRoots}
    (known : ∀ root ∈ roots, ∃ j, root = (project j).root) :
    run (parser grammar) (project i).source.id ⟨(project i).text, roots⟩ =
      (project i).outcome grammar := by
  obtain ⟨-, sound, ⟨name, declares⟩, plain, reveals⟩ := consistent.sited i
  -- A known root that holds the file is the file's own, so that it expects the file's package.
  have agrees : mismatch? roots (project i).source.id.path (project i).package = none := by
    refine mismatch?_eq_none fun root among holds => ?_
    obtain ⟨j, rfl⟩ := known root among
    exact expectedPackage?_of_sourceRoot? plain (solid_of_packageDeclaration declares) reveals
      (consistent.apart i j holds)
  have clean := (marked (project i).text).hasError_eq_false sound
  rw [run, parser_eq_accepted clean declares agrees, reveals]
  rfl

/-- What holds of a parse under way when these roots are known: the parser runs on the text of its
file and on roots of the project, or it has ended with success, and what is still to be registered
is the root of its file, unless that is known. -/
def Fits (grammar : Grammar) (project : ι → Member) (roots : SourceRoots) (i : ι) :
    Headway CompilationUnit → Prop
  | .running call =>
    call.text = (project i).text ∧ ∀ root ∈ call.roots, ∃ j, root = (project j).root
  | .telling rest outcome =>
    outcome = (project i).outcome grammar ∧ (∀ root ∈ rest, root = (project i).root) ∧
      ((project i).root ∈ rest ∨ roots.knows (project i).root = true)

/-- What holds of the parses of a project at any time. -/
structure Orderly (grammar : Grammar) (project : ι → Member) (bench : Bench ι CompilationUnit) :
    Prop where
  /-- Every root that is known is one of the project. -/
  known : ∀ root ∈ bench.roots, ∃ i, root = (project i).root
  /-- No root is known twice. -/
  distinct : bench.roots.Pairwise fun a b => a.same b = false
  /-- Every parse under way fits. -/
  active : ∀ entry ∈ bench.active, Fits grammar project bench.roots entry.1 entry.2
  /-- A parse that is over ended with success, and the root of its file is known. -/
  done : ∀ entry ∈ bench.done, entry.2 = (project entry.1).outcome grammar ∧
    bench.roots.knows (project entry.1).root = true

/-- A parse under way goes on to fit when more roots become known. -/
theorem Fits.register {roots : SourceRoots} {i : ι} {progress : Headway CompilationUnit}
    (fits : Fits grammar project roots i progress) (root : Path) :
    Fits grammar project (roots.register root) i progress := by
  cases progress with
  | running call => exact fits
  | telling rest outcome =>
    obtain ⟨success, own, told⟩ := fits
    exact ⟨success, own, told.imp_right fun known => SourceRoots.knows_register.2 (.inl known)⟩

/-- What is in a list in which one entry was replaced is the new entry or was there before. -/
theorem mem_of_mem_replaced {β : Type} {before after : List β} {old new entry : β}
    (among : entry ∈ before ++ new :: after) : entry = new ∨ entry ∈ before ++ old :: after := by
  simp only [List.mem_append, List.mem_cons] at among ⊢
  tauto

/-- The parses of a project stay orderly with every step. -/
theorem Orderly.step (consistent : Consistent grammar files project)
    (marked : ∀ text, (grammar text).IsMarked) (orderly : Orderly grammar project bench)
    (step : Bench.Step (parser grammar) files (fun i => (project i).source) bench later) :
    Orderly grammar project later := by
  obtain ⟨known, distinct, active, ended⟩ := orderly
  cases step with
  | @begins _ i call ready =>
    -- The parse is given the roots that are known now, all of them of the project.
    cases ((consistent.sited i).prepare_eq bench.roots).symm.trans ready
    refine ⟨known, distinct, fun entry among => ?_, ended⟩
    rcases List.mem_append.1 among with before | fresh
    · exact active entry before
    · cases List.mem_singleton.1 fresh
      exact ⟨rfl, known⟩
  | @fails _ i outcome unread =>
    cases ((consistent.sited i).prepare_eq bench.roots).symm.trans unread
  | @returns roots before after i call done =>
    -- Others may have registered roots since, but the parse is judged by those it was given.
    obtain ⟨text, given⟩ := active _ (List.mem_append_right _ List.mem_cons_self)
    have outcome : run (parser grammar) (project i).source.id call =
        (project i).outcome grammar := by
      rw [show call = ⟨(project i).text, call.roots⟩ from text ▸ rfl]
      exact consistent.run_eq marked i given
    refine ⟨known, distinct, fun entry among => ?_, ended⟩
    rcases mem_of_mem_replaced among with rfl | before
    · show Fits grammar project roots i (.telling _ _)
      rw [outcome]
      exact ⟨rfl, fun root inside => List.mem_singleton.1 inside, .inl List.mem_cons_self⟩
    · exact active entry before
  | @registers roots before after i root rest outcome done =>
    obtain ⟨success, own, told⟩ := active _ (List.mem_append_right _ List.mem_cons_self)
    obtain rfl : root = (project i).root := own root List.mem_cons_self
    -- The root may be known in another spelling, which is then kept.
    have now : (roots.register (project i).root).knows (project i).root = true :=
      SourceRoots.knows_register.2 (.inr (beq_self_eq_true _))
    refine ⟨fun other among => ?_, SourceRoots.pairwise_register distinct,
      fun entry among => ?_, fun entry among => ?_⟩
    · rcases SourceRoots.mem_of_mem_register among with before | rfl
      · exact known other before
      · exact ⟨i, rfl⟩
    · rcases mem_of_mem_replaced among with rfl | before
      · exact ⟨success, fun other inside => own other (List.mem_cons_of_mem _ inside), .inr now⟩
      · exact (active entry before).register _
    · obtain ⟨success, before⟩ := ended entry among
      exact ⟨success, SourceRoots.knows_register.2 (.inl before)⟩
  | @ends roots before after i outcome done =>
    obtain ⟨success, -, told⟩ := active _ (List.mem_append_right _ List.mem_cons_self)
    refine ⟨known, distinct, fun entry among => active entry ?_, fun entry among => ?_⟩
    · rcases List.mem_append.1 among with first | last
      · exact List.mem_append_left _ first
      · exact List.mem_append_right _ (List.mem_cons_of_mem _ last)
    · rcases List.mem_append.1 among with before | fresh
      · exact ended entry before
      · cases List.mem_singleton.1 fresh
        exact ⟨success, told.resolve_left List.not_mem_nil⟩

/-- The parses of a project are orderly whatever the order of their steps. -/
theorem Consistent.orderly (consistent : Consistent grammar files project)
    (marked : ∀ text, (grammar text).IsMarked)
    (reached : Bench.Becomes (parser grammar) files (fun i => (project i).source) .bare bench) :
    Orderly grammar project bench := by
  induction reached with
  | refl => exact ⟨nofun, List.Pairwise.nil, nofun, nofun⟩
  | tail _ step ih => exact ih.step consistent marked step

/-- In a project in which each file lies where its package says, and in no root but its own, every
order of any number of parses side by side comes to the same: each parse ends, with success and
with the file's own root, nothing but roots of the project is known at any time, and when every file
has been parsed each root of the project is known exactly once. -/
theorem consistent_project_parses_cleanly (marked : ∀ text, (grammar text).IsMarked)
    (consistent : Consistent grammar files project)
    (reached : Bench.Becomes (parser grammar) files (fun i => (project i).source) .bare bench) :
    (∀ i outcome, (i, outcome) ∈ bench.done →
      outcome = .success ⟨grammar (project i).text, some (project i).package⟩ [(project i).root]) ∧
    (∀ i progress, (i, progress) ∈ bench.active → ∃ later,
      Bench.Becomes (parser grammar) files (fun i => (project i).source) bench later ∧
        ∃ outcome, (i, outcome) ∈ later.done) ∧
    (∀ root ∈ bench.roots, ∃ i, root = (project i).root) ∧
    ((∀ i, ∃ outcome, (i, outcome) ∈ bench.done) →
      ∀ i, bench.roots.countP (project i).root.same = 1) := by
  have orderly := consistent.orderly marked reached
  refine ⟨fun i outcome among => (orderly.done _ among).1,
    fun i progress among => Bench.becomes_done among, orderly.known, fun all i => ?_⟩
  obtain ⟨outcome, among⟩ := all i
  exact SourceRoots.countP_same orderly.distinct (orderly.done _ among).2

end

namespace Duo

/-- The node of a package of one letter. -/
def letter : Label := ⟨"identifier", true, false, false, false, 8, 9, ⟨0, 8⟩, ⟨0, 9⟩⟩

/-- The tree of a text that declares a package of one letter. -/
def page : Tree :=
  .node ⟨"program", true, false, false, false, 0, 10, ⟨0, 0⟩, ⟨0, 10⟩⟩
    [.node ⟨"package_declaration", true, false, false, false, 0, 10, ⟨0, 0⟩, ⟨0, 10⟩⟩
      [.node letter []]]

/-- A disk with one file of a project. -/
def files : FileSystem :=
  (FileSystem.empty [] List.all_nil).writeFile ⟨"/lib/b/B.java"⟩ (.octets "package b;".toUTF8)

/-- Two files in two roots, of which one is open in the editor. -/
def project : Bool → Member
  | false => ⟨⟨⟨⟨"/src/a/A.java"⟩⟩, some "package a;"⟩, "package a;", "a", ⟨"/src"⟩⟩
  | true => ⟨⟨⟨⟨"/lib/b/B.java"⟩⟩, none⟩, "package b;", "b", ⟨"/lib"⟩⟩

/-- No node of the page is an error or missing. -/
theorem page_sound : page.IsSound := by
  intro label inside
  cases inside with
  | top => exact ⟨rfl, rfl⟩
  | inner among inside =>
    cases List.mem_singleton.1 among
    cases inside with
    | top => exact ⟨rfl, rfl⟩
    | inner among inside =>
      cases List.mem_singleton.1 among
      cases inside with
      | top => exact ⟨rfl, rfl⟩
      | inner among _ => cases among

/-- The top of the page tells so. -/
theorem page_marked : page.IsMarked := by
  refine ⟨nofun, fun ⟨label, inside, faulty⟩ => ?_⟩
  obtain ⟨noError, present⟩ := page_sound label inside
  simp [noError, present] at faulty

/-- The two files make a project. -/
theorem consistent : Consistent (fun _ => page) files project where
  sited
    | false =>
      ⟨.inl rfl, page_sound, ⟨letter, by decide +kernel⟩, by decide +kernel, by decide +kernel⟩
    | true =>
      ⟨.inr ⟨rfl, by decide +kernel⟩, page_sound, ⟨letter, by decide +kernel⟩, by decide +kernel,
        by decide +kernel⟩
  apart := by decide +kernel

end Duo

open Duo in
/-- One file is parsed from beginning to end while the parser runs on the other, which began when
no root was known. Both parses end with success, and both roots are known once. -/
theorem two_overlapping_parses_end_cleanly : ∃ bench,
    Bench.Becomes (parser fun _ => page) files (fun i => (project i).source) .bare bench ∧
    (∀ i, (i, .success ⟨page, some (project i).package⟩ [(project i).root]) ∈ bench.done) ∧
    ∀ i, bench.roots.countP (project i).root.same = 1 := by
  -- The first file's parser runs on no roots; the second file is parsed; then the first ends.
  have begun : Bench.Becomes (parser fun _ => page) files (fun i => (project i).source) .bare
      ⟨[], [(false, .running ⟨"package a;", []⟩)], []⟩ := .single (.begins rfl)
  obtain ⟨bench, reached, all⟩ : ∃ bench,
      Bench.Becomes (parser fun _ => page) files (fun i => (project i).source) .bare bench ∧
      ∀ i, ∃ outcome, (i, outcome) ∈ bench.done := by
    refine ⟨_, (begun.trans (Bench.becomes_file _ true)).trans
      (Bench.becomes_of_running _ [] [] false ⟨"package a;", []⟩ _), fun i => ?_⟩
    cases i with
    | false => exact ⟨_, List.mem_append_right _ List.mem_cons_self⟩
    | true => exact ⟨_, List.mem_append_left _ List.mem_cons_self⟩
  obtain ⟨success, -, -, once⟩ :=
    consistent_project_parses_cleanly (fun _ => page_marked) consistent reached
  refine ⟨bench, reached, fun i => ?_, once all⟩
  obtain ⟨outcome, among⟩ := all i
  exact success i outcome among ▸ among

end Layout

end DiagnosticServer
