import TypeInType.Proofs.Refusals
import TypeInType.Proofs.Visits

/-!
What a run says of a program it says of every step once, under the index that the
step had at first. The cursor moves in four ways: past a step that succeeded, over
one more that is skipped, past a step that failed, or not at all when a failure
ends the run. The ledger says what all four keep.
-/

namespace TypeInType

def elaboratedAt (settings : Settings) (visits : List Visit) : List Nat :=
  (visits.filter (Visit.succeeds settings)).map Visit.index

def failures (settings : Settings) (visits : List Visit) : List Visit :=
  visits.filter fun visit => !visit.succeeds settings

def failedAt (settings : Settings) (visits : List Visit) : List Nat :=
  (failures settings visits).map Visit.index

section Indices

variable {settings : Settings} {visits : List Visit} {visit : Visit}

theorem elaboratedAt_of_success (visits : List Visit) (succeeds : visit.succeeds settings = true) :
    elaboratedAt settings (visits ++ [visit]) = elaboratedAt settings visits ++ [visit.index] := by
  simp [elaboratedAt, succeeds]

theorem elaboratedAt_of_failure (visits : List Visit) (fails : visit.succeeds settings = false) :
    elaboratedAt settings (visits ++ [visit]) = elaboratedAt settings visits := by
  simp [elaboratedAt, fails]

theorem failedAt_of_success (visits : List Visit) (succeeds : visit.succeeds settings = true) :
    failedAt settings (visits ++ [visit]) = failedAt settings visits := by
  simp [failedAt, failures, succeeds]

theorem failures_of_failure (visits : List Visit) (fails : visit.succeeds settings = false) :
    failures settings (visits ++ [visit]) = failures settings visits ++ [visit] := by
  simp [failures, fails]

theorem failedAt_of_failure (visits : List Visit) (fails : visit.succeeds settings = false) :
    failedAt settings (visits ++ [visit]) = failedAt settings visits ++ [visit.index] := by
  rw [failedAt, failures_of_failure visits fails, List.map_append]
  rfl

theorem errors_eq_nil_iff :
    visits.filterMap (Visit.error? settings) = [] ↔ failedAt settings visits = [] := by
  simp only [failedAt, failures, List.map_eq_nil_iff, List.filter_eq_nil_iff,
    List.filterMap_eq_nil_iff, Visit.error?, Visit.succeeds]
  apply forall₂_congr
  intro visit _
  cases (visit.elaborate settings).outcome <;> simp [Except.isOk, Except.toBool]

end Indices

theorem passed_next {front back : List Nat} {position : Nat}
    (passed : (front ++ back).Perm (List.range position)) :
    (front ++ position :: back).Perm (List.range (position + 1)) := by
  rw [List.range_succ]
  exact List.perm_middle.trans
    ((passed.cons position).trans (List.perm_append_singleton _ _).symm)

theorem ascending_next {indices : List Nat} {position : Nat}
    (ascending : indices.Pairwise (· < ·)) (before : ∀ index ∈ indices, index < position) :
    (indices ++ [position]).Pairwise (· < ·) := by
  rw [List.pairwise_append]
  refine ⟨ascending, List.pairwise_singleton _ _, ?_⟩
  intro index member last isLast
  rw [List.mem_singleton.mp isLast]
  exact before index member

/-- What holds between any two turns: the steps that remain are those from the cursor
on, and the steps before it have been elaborated, skipped or, unless a failure ends
the run, passed over because they failed. -/
structure Ledger (settings : Settings) (program : Program) (run : Run) (visits : List Visit)
    (skipped : List Nat) : Prop extends Run.Recorded settings run visits where
  remaining : run.remaining.outlines = program.outlines.drop run.position
  within : run.position ≤ program.length
  visited : ∀ visit ∈ visits, visit.step.outline :: visit.rest.outlines =
    program.outlines.drop visit.index
  passed : (elaboratedAt settings visits ++ skipped ++
    if settings.haltOnError then [] else failedAt settings visits).Perm (List.range run.position)
  elaborated_ascending : (elaboratedAt settings visits).Pairwise (· < ·)
  skipped_ascending : skipped.Pairwise (· < ·)
  failed_ascending : (failedAt settings visits).Pairwise (· < ·)
  skipped_labels : run.skipped.map some = skipped.map fun index => program.labels[index]?
  mem_skipped_iff : ∀ index, index ∈ skipped ↔ index < run.position ∧
    settings.skipAfterSubstitution = true ∧
      ∃ before ∈ elaboratedAt settings visits, index = before + 1
  halted : settings.haltOnError = true → failedAt settings visits = [] ∨
    ∃ visit, failures settings visits = [visit] ∧ run.position = visit.index ∧
      run.remaining = visit.step :: visit.rest

def Unskipped (settings : Settings) (run : Run) (visits : List Visit) : Prop :=
  settings.skipAfterSubstitution = true → run.remaining ≠ [] →
    ∀ before ∈ elaboratedAt settings visits, before + 1 ≠ run.position

namespace Ledger

variable {settings : Settings} {program : Program} {run : Run} {visits : List Visit}
  {skipped : List Nat} {visit : Visit}

theorem start (settings : Settings) (program : Program) :
    Ledger settings program (.start program) [] [] where
  elaborated := rfl
  errors := rfl
  warnings := rfl
  remaining := rfl
  within := Nat.zero_le _
  visited := by simp
  passed := by simp [elaboratedAt, failedAt, failures, Run.start]
  elaborated_ascending := .nil
  skipped_ascending := .nil
  failed_ascending := .nil
  skipped_labels := rfl
  mem_skipped_iff := by simp [elaboratedAt]
  halted := fun _ => .inl rfl

theorem before_position (ledger : Ledger settings program run visits skipped) :
    (∀ index ∈ elaboratedAt settings visits, index < run.position) ∧
      ∀ index ∈ skipped, index < run.position := by
  have passed : ∀ index ∈ elaboratedAt settings visits ++ skipped, index < run.position := by
    intro index member
    exact List.mem_range.mp (ledger.passed.subset (List.mem_append_left _ member))
  exact ⟨fun index member => passed index (List.mem_append_left _ member),
    fun index member => passed index (List.mem_append_right _ member)⟩

theorem failed_nil (ledger : Ledger settings program run visits skipped)
    (going : run.isOver settings = false) (halts : settings.haltOnError = true) :
    failedAt settings visits = [] := by
  rw [← errors_eq_nil_iff, ← ledger.errors]
  simpa [Run.isOver, Run.ok, halts] using (Bool.or_eq_false_iff.mp going).2

theorem failed_before (ledger : Ledger settings program run visits skipped)
    (going : run.isOver settings = false) :
    ∀ index ∈ failedAt settings visits, index < run.position := by
  intro index member
  cases halts : settings.haltOnError with
  | true =>
      rw [ledger.failed_nil going halts] at member
      cases member
  | false =>
      have passed := ledger.passed
      rw [halts] at passed
      exact List.mem_range.mp (passed.subset (List.mem_append_right _ member))

theorem at_cursor (ledger : Ledger settings program run visits skipped) {step : Step}
    {rest : Program} (standing : run.remaining = step :: rest) :
    step.outline :: rest.outlines = program.outlines.drop run.position := by
  rw [← ledger.remaining, standing]
  rfl

theorem behind_cursor (ledger : Ledger settings program run visits skipped) {step : Step}
    {rest : Program} (standing : run.remaining = step :: rest) :
    rest.outlines = program.outlines.drop (run.position + 1) := by
  rw [← List.tail_drop, ← ledger.at_cursor standing, List.tail_cons]

theorem position_lt (ledger : Ledger settings program run visits skipped)
    (more : run.remaining ≠ []) : run.position < program.length := by
  by_contra beyond
  apply more
  have ended := ledger.remaining
  rw [List.drop_eq_nil_of_le (by rw [Program.length_outlines]; omega)] at ended
  exact List.map_eq_nil_iff.mp ended

theorem visited_next (ledger : Ledger settings program run visits skipped)
    (visited : run.visit? settings = some visit) :
    ∀ other ∈ visits ++ [visit], other.step.outline :: other.rest.outlines =
      program.outlines.drop other.index := by
  obtain ⟨_, index, standing⟩ := Run.visit?_eq_some_iff.mp visited
  intro other member
  rcases List.mem_append.mp member with earlier | last
  · exact ledger.visited other earlier
  · rw [List.mem_singleton.mp last, ← index]
    exact ledger.at_cursor standing

theorem succeed (ledger : Ledger settings program run visits skipped)
    (unskipped : Unskipped settings run visits) (visited : run.visit? settings = some visit)
    {next : Program} (found : (visit.elaborate settings).outcome = .ok next) :
    Ledger settings program (run.attempt settings visit) (visits ++ [visit]) skipped := by
  obtain ⟨going, index, standing⟩ := Run.visit?_eq_some_iff.mp visited
  obtain ⟨position, remaining, passedOver⟩ := Run.attempt_of_ok run found
  have succeeds : visit.succeeds settings = true := Visit.succeeds_iff.mpr ⟨next, found⟩
  have elaborated : elaboratedAt settings (visits ++ [visit]) =
      elaboratedAt settings visits ++ [run.position] := by
    rw [elaboratedAt_of_success visits succeeds, index]
  have failed : failedAt settings (visits ++ [visit]) = failedAt settings visits :=
    failedAt_of_success visits succeeds
  have more : run.remaining ≠ [] := by simp [standing]
  have inside := ledger.position_lt more
  refine { ledger.toRecorded.attempt visit with
    remaining := ?_, within := ?_, visited := ledger.visited_next visited, passed := ?_,
    elaborated_ascending := ?_, skipped_ascending := ledger.skipped_ascending,
    failed_ascending := ?_, skipped_labels := ?_, mem_skipped_iff := ?_, halted := ?_ }
  · rw [remaining, position, outlines_elaborateStep found]
    exact ledger.behind_cursor standing
  · omega
  · have passed := ledger.passed
    rw [List.append_assoc] at passed
    rw [position, elaborated, failed]
    simpa using passed_next passed
  · rw [elaborated]
    exact ascending_next ledger.elaborated_ascending ledger.before_position.1
  · rw [failed]
    exact ledger.failed_ascending
  · rw [passedOver]
    exact ledger.skipped_labels
  · intro other
    rw [ledger.mem_skipped_iff other, elaborated, position]
    -- The step just elaborated has the next index behind it, and no step was waiting here.
    constructor
    · rintro ⟨before, skips, earlier, member, rfl⟩
      exact ⟨by omega, skips, earlier, List.mem_append_left _ member, rfl⟩
    · rintro ⟨before, skips, earlier, member, rfl⟩
      rcases List.mem_append.mp member with inside | last
      · have differ := unskipped skips more earlier inside
        exact ⟨by omega, skips, earlier, inside, rfl⟩
      · rw [List.mem_singleton.mp last] at before
        omega
  · intro halts
    rw [failed]
    exact .inl (ledger.failed_nil going halts)

theorem pass (ledger : Ledger settings program run visits skipped)
    (unskipped : Unskipped settings run visits) (visited : run.visit? settings = some visit)
    {diagnosis : Diagnosis} (found : (visit.elaborate settings).outcome = .error diagnosis)
    (passes : settings.haltOnError = false) :
    Ledger settings program (run.attempt settings visit) (visits ++ [visit]) skipped := by
  obtain ⟨going, index, standing⟩ := Run.visit?_eq_some_iff.mp visited
  obtain ⟨position, remaining, passedOver⟩ := Run.attempt_passing run found passes
  have fails : visit.succeeds settings = false := Visit.fails_iff.mpr ⟨diagnosis, found⟩
  have elaborated : elaboratedAt settings (visits ++ [visit]) = elaboratedAt settings visits :=
    elaboratedAt_of_failure visits fails
  have failed : failedAt settings (visits ++ [visit]) =
      failedAt settings visits ++ [run.position] := by
    rw [failedAt_of_failure visits fails, index]
  have more : run.remaining ≠ [] := by simp [standing]
  have inside := ledger.position_lt more
  refine { ledger.toRecorded.attempt visit with
    remaining := ?_, within := ?_, visited := ledger.visited_next visited, passed := ?_,
    elaborated_ascending := ?_, skipped_ascending := ledger.skipped_ascending,
    failed_ascending := ?_, skipped_labels := ?_, mem_skipped_iff := ?_, halted := ?_ }
  · rw [remaining, position]
    exact ledger.behind_cursor standing
  · omega
  · have passed := ledger.passed
    rw [passes] at passed ⊢
    rw [position, elaborated, failed]
    -- As the run goes on, the failures are among what has been passed, and come last there.
    rw [if_neg Bool.false_ne_true, ← List.append_nil (_ ++ _)] at passed
    simpa using passed_next passed
  · rw [elaborated]
    exact ledger.elaborated_ascending
  · rw [failed]
    exact ascending_next ledger.failed_ascending (ledger.failed_before going)
  · rw [passedOver]
    exact ledger.skipped_labels
  · intro other
    rw [ledger.mem_skipped_iff other, elaborated, position]
    constructor
    · rintro ⟨before, skips, earlier, member, rfl⟩
      exact ⟨by omega, skips, earlier, member, rfl⟩
    · rintro ⟨before, skips, earlier, member, rfl⟩
      have differ := unskipped skips more earlier member
      exact ⟨by omega, skips, earlier, member, rfl⟩
  · intro halts
    rw [passes] at halts
    cases halts

theorem halt (ledger : Ledger settings program run visits skipped)
    (visited : run.visit? settings = some visit) {diagnosis : Diagnosis}
    (found : (visit.elaborate settings).outcome = .error diagnosis)
    (halts : settings.haltOnError = true) :
    Ledger settings program (run.attempt settings visit) (visits ++ [visit]) skipped := by
  obtain ⟨going, index, standing⟩ := Run.visit?_eq_some_iff.mp visited
  obtain ⟨position, remaining, passedOver⟩ := Run.attempt_halting run found halts
  have fails : visit.succeeds settings = false := Visit.fails_iff.mpr ⟨diagnosis, found⟩
  have elaborated : elaboratedAt settings (visits ++ [visit]) = elaboratedAt settings visits :=
    elaboratedAt_of_failure visits fails
  have failed : failedAt settings (visits ++ [visit]) = [run.position] := by
    rw [failedAt_of_failure visits fails, ledger.failed_nil going halts, index, List.nil_append]
  refine { ledger.toRecorded.attempt visit with
    remaining := ?_, within := ?_, visited := ledger.visited_next visited, passed := ?_,
    elaborated_ascending := ?_, skipped_ascending := ledger.skipped_ascending,
    failed_ascending := ?_, skipped_labels := ?_, mem_skipped_iff := ?_, halted := ?_ }
  · rw [remaining, position]
    exact ledger.remaining
  · rw [position]
    exact ledger.within
  · have passed := ledger.passed
    rw [halts] at passed ⊢
    rw [position, elaborated]
    exact passed
  · rw [elaborated]
    exact ledger.elaborated_ascending
  · rw [failed]
    exact List.pairwise_singleton _ _
  · rw [passedOver]
    exact ledger.skipped_labels
  · rw [elaborated, position]
    exact ledger.mem_skipped_iff
  · intro _
    have none := List.map_eq_nil_iff.mp (ledger.failed_nil going halts)
    right
    refine ⟨visit, ?_, position.trans index, remaining.trans standing⟩
    rw [failures_of_failure visits fails, none, List.nil_append]

theorem skip (ledger : Ledger settings program run visits skipped)
    (skips : settings.skipAfterSubstitution = true) {step : Step} {rest : Program}
    (standing : run.remaining = step :: rest) {before : Nat}
    (follows : before ∈ elaboratedAt settings visits) (next : before + 1 = run.position)
    (fine : settings.haltOnError = true → failedAt settings visits = []) :
    Ledger settings program run.skip visits (skipped ++ [run.position]) := by
  obtain ⟨position, remaining, passedOver⟩ := Run.skip_of_cons standing
  have inside := ledger.position_lt (by simp [standing])
  refine { ledger.toRecorded.skip with
    remaining := ?_, within := ?_, visited := ledger.visited, passed := ?_,
    elaborated_ascending := ledger.elaborated_ascending, skipped_ascending := ?_,
    failed_ascending := ledger.failed_ascending, skipped_labels := ?_, mem_skipped_iff := ?_,
    halted := ?_ }
  · rw [remaining, position]
    exact ledger.behind_cursor standing
  · omega
  · rw [position]
    simpa using passed_next ledger.passed
  · exact ascending_next ledger.skipped_ascending ledger.before_position.2
  · have label : program.labels[run.position]? = some step.label := by
      rw [Program.labels_eq_outlines, List.getElem?_map, ← List.head?_drop,
        ← ledger.at_cursor standing]
      rfl
    rw [passedOver, List.map_append, List.map_append, ledger.skipped_labels]
    simp [label]
  · intro other
    rw [List.mem_append, ledger.mem_skipped_iff other, List.mem_singleton, position]
    constructor
    · rintro (⟨earlier, _, rest⟩ | rfl)
      · exact ⟨by omega, skips, rest⟩
      · exact ⟨by omega, skips, before, follows, next.symm⟩
    · rintro ⟨within, _, earlier, member, rfl⟩
      by_cases here : earlier + 1 = run.position
      · exact .inr here
      · exact .inl ⟨by omega, skips, earlier, member, rfl⟩
  · exact fun halts => .inl (fine halts)

/-- One turn: the ledger is kept, and no step is left waiting to be skipped. -/
theorem turn_stays (ledger : Ledger settings program run visits skipped)
    (unskipped : Unskipped settings run visits) (linked : program.Linked)
    (visited : run.visit? settings = some visit)
    (staying : visit.succeeds settings = true → visit.step.isDeclaration = true →
      settings.skipAfterSubstitution = false) :
    Ledger settings program (run.attempt settings visit) (visits ++ [visit]) skipped ∧
      Unskipped settings (run.attempt settings visit) (visits ++ [visit]) := by
  obtain ⟨going, index, standing⟩ := Run.visit?_eq_some_iff.mp visited
  have more : run.remaining ≠ [] := by simp [standing]
  cases found : (visit.elaborate settings).outcome with
  | ok next =>
      refine ⟨ledger.succeed unskipped visited found, ?_⟩
      intro skips remains
      -- Nothing is skipped only behind an expression, and that is the last step.
      have succeeds : visit.succeeds settings = true := Visit.succeeds_iff.mpr ⟨next, found⟩
      have expression : visit.step.isDeclaration = false := by
        rw [← Bool.not_eq_true]
        intro declares
        rw [staying succeeds declares] at skips
        cases skips
      have linkedHere : Program.Linked (visit.step :: visit.rest) :=
        linked.of_outlines (ledger.at_cursor standing)
      have last := linkedHere.of_expression expression
      have ended := outlines_elaborateStep found
      rw [last] at ended
      rw [(Run.attempt_of_ok run found).2.1] at remains
      exact absurd (List.map_eq_nil_iff.mp ended) remains
  | error diagnosis =>
      have elaborated : elaboratedAt settings (visits ++ [visit]) = elaboratedAt settings visits :=
        elaboratedAt_of_failure visits (Visit.fails_iff.mpr ⟨diagnosis, found⟩)
      cases halts : settings.haltOnError with
      | true =>
          refine ⟨ledger.halt visited found halts, ?_⟩
          intro skips _
          rw [elaborated, (Run.attempt_halting run found halts).1]
          exact unskipped skips more
      | false =>
          refine ⟨ledger.pass unskipped visited found halts, ?_⟩
          intro skips _ before member
          rw [elaborated] at member
          have earlier := ledger.before_position.1 before member
          rw [(Run.attempt_passing run found halts).1]
          omega

theorem turn_skips (ledger : Ledger settings program run visits skipped)
    (unskipped : Unskipped settings run visits) (visited : run.visit? settings = some visit)
    (succeeds : visit.succeeds settings = true) (skips : settings.skipAfterSubstitution = true) :
    ∃ skipped,
      Ledger settings program (run.attempt settings visit).skip (visits ++ [visit]) skipped ∧
        Unskipped settings (run.attempt settings visit).skip (visits ++ [visit]) := by
  obtain ⟨going, index, _⟩ := Run.visit?_eq_some_iff.mp visited
  obtain ⟨next, found⟩ := Visit.succeeds_iff.mp succeeds
  obtain ⟨position, remaining, _⟩ := Run.attempt_of_ok run found
  have after := ledger.succeed unskipped visited found
  have elaborated := elaboratedAt_of_success visits succeeds
  cases standing : next with
  | nil =>
      -- There is nothing left to skip.
      rw [standing] at remaining
      refine ⟨skipped, ?_, ?_⟩
      · rw [Run.skip, remaining]
        exact after
      · intro _ remains
        rw [Run.skip, remaining] at remains
        exact absurd remaining remains
  | cons step rest =>
      rw [standing] at remaining
      have follows : run.position ∈ elaboratedAt settings (visits ++ [visit]) := by
        rw [elaborated, index]
        exact List.mem_append_right _ List.mem_cons_self
      have fine : settings.haltOnError = true → failedAt settings (visits ++ [visit]) = [] := by
        intro halts
        rw [failedAt_of_success visits succeeds]
        exact ledger.failed_nil going halts
      refine ⟨_, after.skip skips remaining follows position.symm fine, ?_⟩
      intro _ _ before member
      have earlier := after.before_position.1 before member
      rw [(Run.skip_of_cons remaining).1]
      omega

theorem turns (settings : Settings) {program : Program} (linked : program.Linked) (count : Nat) :
    ∃ skipped, Ledger settings program (Run.turns settings count (.start program))
        (Run.visits settings count (.start program)) skipped ∧
      Unskipped settings (Run.turns settings count (.start program))
        (Run.visits settings count (.start program)) := by
  refine @Run.turns_induction settings (fun run visits => ∃ skipped,
    Ledger settings program run visits skipped ∧ Unskipped settings run visits) _ ?_ ?_ ?_ count
  · exact ⟨[], .start settings program, by simp [Unskipped, elaboratedAt]⟩
  · rintro run visits visit ⟨skipped, ledger, unskipped⟩ visited staying
    exact ⟨skipped, ledger.turn_stays unskipped linked visited staying⟩
  · rintro run visits visit ⟨skipped, ledger, unskipped⟩ visited succeeds _ skips
    exact ledger.turn_skips unskipped visited succeeds skips

end Ledger

def Concerns (program : Program) (error : Diagnosis) (index : Nat) : Prop :=
  ∃ label judgement, program.labels[index]? = some label ∧
    error.details.lookup "step_index" = some (.integer index) ∧
      error.details.lookup "step_name" = some (.text label) ∧
        error.details.lookup "judgement" = some (.text judgement)

/-- Every step of the program is accounted for, once and under the index that it has in
the program. -/
structure Accounted (settings : Settings) (program : Program) (run : Run) (visits : List Visit)
    (skipped : List Nat) : Prop where
  /-- What a step passes on can be linked again. -/
  relinked : ∀ visit ∈ visits, ∀ next, (visit.elaborate settings).outcome = .ok next →
    Program.link? next = some next
  passed : (elaboratedAt settings visits ++ skipped ++
    if settings.haltOnError then [] else failedAt settings visits).Perm (List.range run.position)
  elaborated_ascending : (elaboratedAt settings visits).Pairwise (· < ·)
  skipped_ascending : skipped.Pairwise (· < ·)
  failed_ascending : (failedAt settings visits).Pairwise (· < ·)
  elaborated_labels :
    run.elaborated.map some = (elaboratedAt settings visits).map fun index => program.labels[index]?
  skipped_labels : run.skipped.map some = skipped.map fun index => program.labels[index]?
  mem_skipped_iff : ∀ index, index ∈ skipped ↔ index < program.length ∧
    settings.skipAfterSubstitution = true ∧
      ∃ before ∈ elaboratedAt settings visits, index = before + 1
  errors : List.Forall₂ (Concerns program) run.errors (failedAt settings visits)
  ok_iff : run.ok = true ↔ run.errors = []
  early_iff : run.position < program.length ↔
    settings.haltOnError = true ∧ failedAt settings visits ≠ []
  early : run.position < program.length →
    failedAt settings visits = [run.position] ∧
      run.remaining.length = program.length - run.position ∧
        run.remaining.outlines = program.outlines.drop run.position
  finished : ¬run.position < program.length →
    run.position = program.length ∧ run.remaining = []

namespace Ledger

variable {settings : Settings} {program : Program} {run : Run} {visits : List Visit}
  {skipped : List Nat}

theorem label_visited (ledger : Ledger settings program run visits skipped) :
    ∀ visit ∈ visits, program.labels[visit.index]? = some visit.step.label := by
  intro visit member
  rw [Program.labels_eq_outlines, List.getElem?_map, ← List.head?_drop,
    ← ledger.visited visit member]
  rfl

theorem relinked (ledger : Ledger settings program run visits skipped) (linked : program.Linked) :
    ∀ visit ∈ visits, ∀ next, (visit.elaborate settings).outcome = .ok next →
      Program.link? next = some next := by
  intro visit member next found
  have behind : next.outlines = program.outlines.drop (visit.index + 1) := by
    rw [outlines_elaborateStep found, ← List.tail_drop, ← ledger.visited visit member,
      List.tail_cons]
  exact (Program.link?_eq_some_iff next next).mpr ⟨rfl, linked.of_outlines behind⟩

theorem elaborated_labels (ledger : Ledger settings program run visits skipped) :
    run.elaborated.map some =
      (elaboratedAt settings visits).map fun index => program.labels[index]? := by
  rw [ledger.elaborated, elaboratedAt, List.map_map, List.map_map]
  apply List.map_congr_left
  intro visit member
  exact (ledger.label_visited visit (List.mem_filter.mp member).1).symm

end Ledger

theorem concerns_of_failure {settings : Settings} {program : Program} {visit : Visit}
    (labelled : program.labels[visit.index]? = some visit.step.label) {diagnosis : Diagnosis}
    (found : (visit.elaborate settings).outcome = .error diagnosis) :
    Concerns program (diagnosis.atStep visit.mark visit.step.place) visit.index := by
  obtain ⟨judgement, named⟩ := exists_judgement found
  refine ⟨visit.step.label, judgement, labelled, ?_, ?_, ?_⟩
  · cases diagnosis with
    | mk cause place step => cases cause <;> rfl
  · cases diagnosis with
    | mk cause place step => cases cause <;> rfl
  · show (diagnosis.cause.details ++ _).lookup "judgement" = _
    rw [List.lookup_append, named]
    rfl

theorem errors_concern {settings : Settings} {program : Program} {visits : List Visit}
    (labelled : ∀ visit ∈ visits, program.labels[visit.index]? = some visit.step.label) :
    List.Forall₂ (Concerns program) (visits.filterMap (Visit.error? settings))
      (failedAt settings visits) := by
  induction visits with
  | nil => exact .nil
  | cons visit rest ih =>
      have later := ih fun other member => labelled other (List.mem_cons_of_mem _ member)
      cases found : (visit.elaborate settings).outcome with
      | ok next =>
          have succeeds : visit.succeeds settings = true := Visit.succeeds_iff.mpr ⟨next, found⟩
          have silent : visit.error? settings = none := by rw [Visit.error?, found]
          rw [List.filterMap_cons_none silent]
          simpa [failedAt, failures, succeeds] using later
      | error diagnosis =>
          have fails : visit.succeeds settings = false := Visit.fails_iff.mpr ⟨diagnosis, found⟩
          have reported : visit.error? settings =
              some (diagnosis.atStep visit.mark visit.step.place) := by rw [Visit.error?, found]
          have here := concerns_of_failure (labelled visit List.mem_cons_self) found
          rw [List.filterMap_cons_some reported]
          simpa [failedAt, failures, fails] using List.Forall₂.cons here later

section Ended

variable {settings : Settings} {program : Program} {visits : List Visit} {skipped : List Nat}

theorem Ledger.length_remaining {run : Run}
    (ledger : Ledger settings program run visits skipped) :
    run.remaining.length = program.length - run.position := by
  rw [← Program.length_outlines, ledger.remaining, List.length_drop, Program.length_outlines]

theorem Ledger.remaining_ne_nil_iff {run : Run}
    (ledger : Ledger settings program run visits skipped) :
    run.remaining ≠ [] ↔ run.position < program.length := by
  rw [← List.length_pos_iff, ledger.length_remaining]
  omega

theorem run_isOver (settings : Settings) {program : Program} (linked : program.Linked) :
    (program.run settings).isOver settings = true := by
  obtain ⟨skipped, ledger, _⟩ := Ledger.turns settings linked program.length
  rcases Run.turns_progress settings program.length (.start program) with ended | far
  · exact ended
  · have none : (program.run settings).remaining = [] := by
      by_contra more
      have before := ledger.remaining_ne_nil_iff.mp more
      omega
    simp [Run.isOver, none]

theorem Ledger.failedAt_eq {run : Run} (ledger : Ledger settings program run visits skipped)
    (halts : settings.haltOnError = true) (failed : failedAt settings visits ≠ []) :
    failedAt settings visits = [run.position] := by
  obtain ⟨visit, only, index, _⟩ := (ledger.halted halts).resolve_left failed
  rw [failedAt, only, index]
  rfl

theorem Ledger.early_iff {run : Run} (ledger : Ledger settings program run visits skipped)
    (ended : run.isOver settings = true) :
    run.position < program.length ↔
      settings.haltOnError = true ∧ failedAt settings visits ≠ [] := by
  rw [← ledger.remaining_ne_nil_iff]
  constructor
  · intro more
    have halted : settings.haltOnError = true ∧ run.errors ≠ [] := by
      simpa [Run.isOver, Run.ok, more] using ended
    rw [ledger.errors, Ne, errors_eq_nil_iff] at halted
    exact halted
  · rintro ⟨halts, failed⟩
    obtain ⟨visit, _, _, standing⟩ := (ledger.halted halts).resolve_left failed
    simp [standing]

end Ended

/-- A run accounts for every step of a linked program. -/
theorem run_accounts_for_steps (settings : Settings) (program : Program)
    (linked : program.Linked) :
    ∃ skipped, Accounted settings program (program.run settings)
      (Run.visits settings program.length (.start program)) skipped := by
  obtain ⟨skipped, ledger, unskipped⟩ := Ledger.turns settings linked program.length
  change Ledger settings program (program.run settings) _ skipped at ledger
  change Unskipped settings (program.run settings) _ at unskipped
  have earlyIff := ledger.early_iff (run_isOver settings linked)
  refine ⟨skipped, {
    relinked := ledger.relinked linked
    passed := ledger.passed
    elaborated_ascending := ledger.elaborated_ascending
    skipped_ascending := ledger.skipped_ascending
    failed_ascending := ledger.failed_ascending
    elaborated_labels := ledger.elaborated_labels
    skipped_labels := ledger.skipped_labels
    mem_skipped_iff := ?_
    errors := ?_
    ok_iff := List.isEmpty_iff
    early_iff := earlyIff
    early := ?_
    finished := ?_ }⟩
  · intro index
    rw [ledger.mem_skipped_iff index]
    constructor
    · rintro ⟨before, follows⟩
      exact ⟨Nat.lt_of_lt_of_le before ledger.within, follows⟩
    · rintro ⟨inside, skips, before, member, rfl⟩
      -- A step behind an elaborated one is not where the run ended.
      have earlier := ledger.before_position.1 before member
      have differ : before + 1 ≠ (program.run settings).position := by
        intro here
        rw [here] at inside
        exact unskipped skips (ledger.remaining_ne_nil_iff.mpr inside) before member here
      exact ⟨by omega, skips, before, member, rfl⟩
  · rw [ledger.errors]
    exact errors_concern ledger.label_visited
  · intro before
    obtain ⟨halts, failed⟩ := earlyIff.mp before
    exact ⟨ledger.failedAt_eq halts failed, ledger.length_remaining, ledger.remaining⟩
  · intro beyond
    have within := ledger.within
    have none := ledger.remaining_ne_nil_iff.not.mpr beyond
    exact ⟨by omega, not_not.mp none⟩

/-- The second step is skipped, and the third is refused. -/
theorem run_accounts_for_refused_claim :
    let program : Program := [.define "a" (.sort none) none, .define "b" (.var "a" none) none,
      .prove ⟨"t", .sort none, .var "c" none⟩ none]
    program.Linked ∧ ∃ skipped, Accounted {} program (program.run {})
      (Run.visits {} 3 (.start program)) skipped := by
  intro program
  have linked : program.Linked := by decide
  exact ⟨linked, run_accounts_for_steps {} program linked⟩

end TypeInType
