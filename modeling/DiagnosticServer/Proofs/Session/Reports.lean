import DiagnosticServer.Proofs.Cache.PushOrder
import DiagnosticServer.Proofs.Cache.Storage
import DiagnosticServer.Proofs.Session.Dialogue

/-!
# What the name of a report stands for

A report is named by the revision of its outcome, and a client that already has the report of that
name is told nothing else. That is sound because a revision stands for one parse of one file and for
one outcome of it: no task stores its outcome twice (`Run.installs_unique`), whatever becomes of the
entry in the meantime. And since what is held for a file belongs to the youngest parse of it
(`Run.latest`), the revisions of successive reports on a file do not fall; they rise when an outcome
was stored in between and not otherwise.
-/

namespace DiagnosticServer

variable {α : Type}

open Cache

/-! ## Names -/

namespace Report

variable {source name : String} {revision other : Nat} {outcome : Outcome α}
  {previous : Option String} {items : List Diagnostic}

/-- A name stands for one revision. -/
theorem eq_of_nameOf (same : nameOf revision = nameOf other) : revision = other := by
  have digits : Nat.toDigits 10 revision = Nat.toDigits 10 other := by
    apply String.ofList_injective
    rw [← Nat.repr_eq_ofList_toDigits, ← Nat.repr_eq_ofList_toDigits]
    exact same
  -- The number can be read back from its digits.
  calc revision = Nat.ofDigitChars 10 (Nat.toDigits 10 revision) 0 :=
        (Nat.ofDigitChars_toDigits (by decide) (by decide)).symm
    _ = Nat.ofDigitChars 10 (Nat.toDigits 10 other) 0 := by rw [digits]
    _ = other := Nat.ofDigitChars_toDigits (by decide) (by decide)

/-- A full report has the name of the revision and the diagnostics of the outcome. -/
theorem eq_of_full (full : ofOutcome source revision outcome previous = .full name items) :
    name = nameOf revision ∧ items = Diagnostic.ofOutcome source outcome := by
  unfold ofOutcome at full
  split_ifs at full
  cases full
  exact ⟨rfl, rfl⟩

/-- A client is told that it has a report only if that is the one of the revision. -/
theorem eq_of_unchanged (unchanged : ofOutcome source revision outcome previous = .unchanged name) :
    previous = some (nameOf revision) := by
  unfold ofOutcome at unchanged
  split_ifs at unchanged with same
  exact same

end Report

namespace Delivery

variable {env : Environment α} {delivery : Delivery α} {name : String} {items : List Diagnostic}

/-- Whether a report stands for the one of that name: it is that one, or it tells a client which has
that one that nothing has changed. -/
def StandsFor (env : Environment α) (name : String) (delivery : Delivery α) : Prop :=
  (∃ items, delivery.report env = .full name items) ∨
    delivery.pull.previous = some name ∧ ∃ same, delivery.report env = .unchanged same

/-- A report stands for the one that has the name of its revision. -/
theorem StandsFor.eq_nameOf (stands : delivery.StandsFor env name) :
    name = Report.nameOf delivery.snapshot.revision := by
  rcases stands with ⟨items, full⟩ | ⟨previous, same, unchanged⟩
  · exact (Report.eq_of_full full).1
  · have own := Report.eq_of_unchanged unchanged
    exact Option.some.inj (previous.symm.trans own)

/-- A full report has the name of its revision and the diagnostics of its outcome. -/
theorem eq_of_report (full : delivery.report env = .full name items) :
    name = Report.nameOf delivery.snapshot.revision ∧ items = delivery.items env :=
  Report.eq_of_full full

end Delivery

namespace Dialogue

variable {env : Environment α} {dialogue : Dialogue α} {first second : Delivery α}

namespace Sound

/-- The outcome of a report was stored before it was looked up. -/
theorem installed (sound : Sound env dialogue) (member : first ∈ dialogue.reports) :
    ∃ moment ∈ dialogue.trail, Installs env moment first.pull.id first.snapshot.revision
      first.snapshot.outcome := by
  obtain ⟨world, run, cached⟩ := sound.held first member
  obtain ⟨moment, passed, installs⟩ :=
    run.accounted.stored _ _ _ (cached?_eq_some.mp cached)
  exact ⟨moment, (sound.recent first member).subset passed, installs⟩

/-- Reports on one revision are about one outcome of one file. -/
theorem agree (sound : Sound env dialogue) (member : first ∈ dialogue.reports)
    (found : second ∈ dialogue.reports)
    (same : first.snapshot.revision = second.snapshot.revision) :
    second.pull.id = first.pull.id ∧ second.snapshot.outcome = first.snapshot.outcome := by
  obtain ⟨moment, passed, installs⟩ := sound.installed member
  obtain ⟨other, follows, repeats⟩ := sound.installed found
  rw [← same] at repeats
  exact sound.run.installs_unique passed follows installs repeats

/-- What was pushed under the revision of a report are the diagnostics of its outcome. -/
theorem pushed (sound : Sound env dialogue) (member : first ∈ dialogue.reports) {id : Identity}
    {uri : Option Uri} {outcome : Outcome α} {sent : List Notification}
    (event : .announced id first.snapshot.revision uri outcome sent ∈
      dialogue.engine.cache.history) :
    id = first.pull.id ∧
      ∀ address items, .diagnostics address items ∈ sent → items = first.items env := by
  obtain ⟨stored, passed, installs⟩ := sound.installed member
  obtain ⟨⟨moment, follows, repeats⟩, -, published, -, -, rfl⟩ :=
    sound.run.accounted.told _ _ _ _ _ event
  obtain ⟨rfl, rfl⟩ := sound.run.installs_unique passed follows installs repeats
  refine ⟨rfl, fun address items among => ?_⟩
  have full : Report.ofOutcome env.options.diagnosticSource first.snapshot.revision
      first.snapshot.outcome none = .full _ items :=
    (Notification.diagnostics_mem_announce.mp among).2
  exact (Report.eq_of_full full).2

/-- The outcome of a report was announced, or its task has still to announce it. -/
theorem announced (sound : Sound env dialogue) (member : first ∈ dialogue.reports) :
    first.snapshot.revision ∈ dialogue.engine.cache.announced ∨
      ∃ task ∈ dialogue.engine.cache.tasks, task.id = first.pull.id ∧
        task.revision = first.snapshot.revision ∧
        ∃ uri, task.stage = .installed uri first.snapshot.outcome := by
  have accounted := sound.run.accounted
  obtain ⟨stored, passed, installs⟩ := sound.installed member
  refine (accounted.kept stored passed _ _ _ installs).imp_right ?_
  rintro ⟨task, among, same, settled⟩
  cases stage : task.stage with
  | installed uri outcome =>
    obtain ⟨moment, follows, repeats⟩ := accounted.settled task among uri outcome stage
    rw [same] at repeats
    obtain ⟨file, rfl⟩ := sound.run.installs_unique passed follows installs repeats
    exact ⟨task, among, file, same, uri, stage⟩
  | queued | admitted | reading | parsing | parsed | condemned | orphaned =>
    rw [stage] at settled
    cases settled

/-- The revisions of the reports on a file rise with the outcomes that are stored for it. -/
theorem rising (sound : Sound env dialogue) (member : first ∈ dialogue.reports)
    (found : second ∈ dialogue.reports) (same : first.pull.id = second.pull.id)
    (later : first.past <:+ second.past) :
    first.snapshot.revision ≤ second.snapshot.revision ∧
      ∃ between, second.past = between ++ first.past ∧
        (first.snapshot.revision < second.snapshot.revision ↔ ∃ moment ∈ between,
          ∃ revision outcome, Installs env moment second.pull.id revision outcome) := by
  obtain ⟨between, whole⟩ := later
  obtain ⟨before, run, held⟩ := sound.held first member
  obtain ⟨after, further, cached⟩ := sound.held second found
  rw [← whole] at further
  rw [same] at held
  obtain ⟨below, risen⟩ := run.cached_mono further held cached
  exact ⟨below, between, whole.symm, risen⟩

end Sound

/-- In every dialogue, however the calls of clients, their pulls and the steps of tasks follow each
other, reports are about the files that their URIs named. If a full report had a name, every report
that stands for that one was made for the same file and of an outcome with the same diagnostics,
whichever URI it was asked for by. No other diagnostics were pushed under that revision; and it was
announced, unless its task has still to do so. Of two reports on a file the later one has the
revision of the earlier one or a larger one, and a larger one if and only if an outcome of the file
was stored between the two. -/
theorem reports_of_same_name_agree (reached : Reached env dialogue) :
    (∀ delivery ∈ dialogue.reports, dialogue.Named delivery.pull.uri delivery.pull.id) ∧
    (∀ first ∈ dialogue.reports, ∀ name items, first.report env = .full name items →
      (∀ second ∈ dialogue.reports, second.StandsFor env name →
        second.pull.id = first.pull.id ∧ second.items env = items) ∧
      (∀ id revision uri outcome sent, Report.nameOf revision = name →
        .announced id revision uri outcome sent ∈ dialogue.engine.cache.history →
        id = first.pull.id ∧
          ∀ address pushed, .diagnostics address pushed ∈ sent → pushed = items) ∧
      ∃ revision, Report.nameOf revision = name ∧
        (revision ∈ dialogue.engine.cache.announced ∨ ∃ task ∈ dialogue.engine.cache.tasks,
          task.id = first.pull.id ∧ task.revision = revision ∧
            ∃ uri, task.stage = .installed uri first.snapshot.outcome)) ∧
    dialogue.reports.Pairwise fun earlier later => earlier.pull.id = later.pull.id →
      earlier.snapshot.revision ≤ later.snapshot.revision ∧
        ∃ between, later.past = between ++ earlier.past ∧
          (earlier.snapshot.revision < later.snapshot.revision ↔ ∃ moment ∈ between,
            ∃ revision outcome, Installs env moment later.pull.id revision outcome) := by
  have sound := reached.sound
  have traced := reached.traced
  refine ⟨fun delivery member => traced.asked _ (traced.answered delivery member),
    fun first member name items full => ?_, ?_⟩
  · obtain ⟨rfl, rfl⟩ := Delivery.eq_of_report full
    refine ⟨fun second found stands => ?_, fun id revision uri outcome sent named event => ?_,
      first.snapshot.revision, rfl, sound.announced member⟩
    · have same := Report.eq_of_nameOf stands.eq_nameOf
      obtain ⟨file, outcome⟩ := sound.agree member found same
      refine ⟨file, ?_⟩
      rw [Delivery.items, outcome, Delivery.items]
    · obtain rfl := Report.eq_of_nameOf named
      exact sound.pushed member event
  · refine sound.ordered.imp_of_mem fun member found later same => ?_
    exact sound.rising member found same later

end Dialogue

namespace Trial

/-- The URI of the file. -/
def address : Uri := ⟨"file:///A", "file", "/A"⟩

/-- Another URI of the file. -/
def detour : Uri := ⟨"file:///x/../A", "file", "/x/../A"⟩

/-- The URI of the other file. -/
def otherAddress : Uri := ⟨"file:///B", "file", "/B"⟩

/-- What is shown of a text that the parser does not accept. -/
def complaint : Diagnostic :=
  .ofProblem (env 1).options.diagnosticSource (Problem.unlocated "unsound")

/-- The steps of clients that record a text which the parser does not accept, and those of the task
of that revision which parses it. -/
def parse (revision : Nat) : List Happening :=
  [.act (.update file (document "unsound")), .act (.proceed (.revise file false)),
    .act (.proceed (.request file)), .act (.move revision .assignWorker),
    .act (.move revision .readDocument), .act (.move revision .launch),
    .act (.move revision .complete)]

/-- A document is opened, and pulled while it is parsed; it is pulled once more by its other URI,
and announced; it is closed, opened with the same text again, parsed and pulled. -/
def visit : List Happening :=
  parse 1 ++
  [.pull address none, .ask ⟨address, file, none⟩, .act (.move 1 .store), .resume 0,
    .pull detour (some "1"), .ask ⟨detour, file, some "1"⟩, .act (.move 1 .publish),
    .act (.close file), .act (.proceed (.evict file)), .forget address] ++
  parse 2 ++
  [.act (.move 2 .store), .pull address (some "1"), .ask ⟨address, file, some "1"⟩]

end Trial

namespace Dialogue

open Trial in
/-- A file is asked for by two URIs, and then once more after it was closed and opened again. The
second report stands for the first, and the third is that of a younger parse. -/
theorem reports_of_same_name_agree_after_reopening : ∃ dialogue first second third,
    Reached (env 1) dialogue ∧ dialogue.reports = [first, second, third] ∧
    first.pull.uri = address ∧ second.pull.uri = detour ∧
    first.report (env 1) = .full "1" [complaint] ∧ second.report (env 1) = .unchanged "1" ∧
    third.report (env 1) = .full "2" [complaint] ∧
    second.pull.id = first.pull.id ∧ second.items (env 1) = [complaint] ∧
    1 ∈ dialogue.engine.cache.announced ∧
    (∀ id uri outcome sent, .announced id 1 uri outcome sent ∈ dialogue.engine.cache.history →
      ∀ address pushed, .diagnostics address pushed ∈ sent → pushed = [complaint]) ∧
    ∃ between, third.past = between ++ first.past ∧
      ∃ moment ∈ between, ∃ revision outcome, Installs (env 1) moment file revision outcome := by
  have start : Reached (env 1) (initial ⟨⟨Cache.empty, Table.empty⟩, [], []⟩ (env 1).files) :=
    .start rfl _
  have played : ((visit.foldlM (step (env 1)) (initial ⟨⟨Cache.empty, Table.empty⟩, [], []⟩
      (env 1).files)).map fun dialogue => (dialogue.engine.cache.announced,
        dialogue.reports.map fun delivery =>
          (delivery.pull, delivery.snapshot.revision, delivery.report (env 1)))) =
      some ([1], [(⟨address, file, none⟩, 1, .full "1" [complaint]),
        (⟨detour, file, some "1"⟩, 1, .unchanged "1"),
        (⟨address, file, some "1"⟩, 2, .full "2" [complaint])]) := by
    decide +kernel
  obtain ⟨dialogue, went, seen⟩ := Option.map_eq_some_iff.mp played
  have reached := start.play went
  obtain ⟨announced, listed⟩ := Prod.mk.inj seen
  obtain ⟨first, _, whole, one, listed⟩ := List.map_eq_cons_iff.mp listed
  obtain ⟨second, _, rfl, two, listed⟩ := List.map_eq_cons_iff.mp listed
  obtain ⟨third, _, rfl, three, listed⟩ := List.map_eq_cons_iff.mp listed
  cases List.map_eq_nil_iff.mp listed
  rw [Prod.mk.injEq, Prod.mk.injEq] at one two three
  obtain ⟨firstPull, firstRevision, full⟩ := one
  obtain ⟨secondPull, -, unchanged⟩ := two
  obtain ⟨thirdPull, thirdRevision, younger⟩ := three
  obtain ⟨-, agree, rising⟩ := reports_of_same_name_agree reached
  rw [whole] at agree rising
  obtain ⟨stands, pushed, -⟩ := agree first (by simp) "1" [complaint] full
  obtain ⟨same, items⟩ := stands second (by simp) (.inr ⟨by rw [secondPull], "1", unchanged⟩)
  -- The third report has a larger revision, so an outcome was stored since the first.
  obtain ⟨-, between, later, risen⟩ :=
    (List.pairwise_cons.mp rising).1 third (by simp) (by rw [firstPull, thirdPull])
  have stored := risen.mp (by rw [firstRevision, thirdRevision]; decide)
  rw [thirdPull] at stored
  refine ⟨dialogue, first, second, third, reached, whole, ?_, ?_, full, unchanged, younger, same,
    items, ?_, fun id uri outcome sent event => ?_, between, later, stored⟩
  · rw [firstPull]
  · rw [secondPull]
  · rw [announced]
    exact List.mem_singleton.mpr rfl
  · exact (pushed id 1 uri outcome sent (by decide) event).2

end Dialogue

end DiagnosticServer
