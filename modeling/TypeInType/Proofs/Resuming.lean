import TypeInType.Proofs.Accounting
import TypeInType.Proofs.InventedNames
import TypeInType.Proofs.Places
import TypeInType.Proofs.RoundTrip

/-!
A halted check can be taken up again from the text it reports. The steps that remain
can be written and read back, as their names come from names that could be read, and
the step that failed fails in the same way as the first step of a program of its own:
it finds the same steps behind it, and no place has a say in what becomes of it.
-/

namespace TypeInType

def Diagnosis.isAt (index : Nat) (diagnosis : Diagnosis) : Bool :=
  diagnosis.step.map StepMark.index = some index

/-- What was reported of the step at the index is reported again of the same step, now
the first one, wherever either points. -/
structure Repeats (index : Nat) (earlier later : Diagnosis) : Prop where
  kind : later.cause.kind = earlier.cause.kind
  message : later.cause.message = earlier.cause.message
  details : ∃ details label,
    earlier.details = details ++ [("step_index", .integer index), ("step_name", .text label)] ∧
      later.details = details ++ [("step_index", .integer 0), ("step_name", .text label)]

structure Resumes (run again : Run) : Prop where
  position : again.position = 0
  elaborated : again.elaborated = []
  skipped : again.skipped = []
  errors : ∃ error repeated, run.errors = [error] ∧ again.errors = [repeated] ∧
    Repeats run.position error repeated
  warnings : List.Forall₂ (Repeats run.position) (run.warnings.filter (Diagnosis.isAt run.position))
    again.warnings
  halted : again.remaining ≠ []
  remaining : Program.text again.remaining = Program.text run.remaining

section Halted

variable {settings : Settings}

theorem isAt_of_mem_warnings {visit : Visit} {warning : Diagnosis}
    (member : warning ∈ visit.warnings settings) (index : Nat) :
    warning.isAt index = decide (visit.index = index) := by
  obtain ⟨diagnosis, _, rfl⟩ := List.mem_map.mp member
  simp [Diagnosis.isAt, Diagnosis.atStep, Visit.mark]

theorem filter_warnings {visits : List Visit} {index : Nat}
    (apart : ∀ visit ∈ visits, visit.index = index ↔ visit.succeeds settings = false) :
    (visits.flatMap (Visit.warnings settings)).filter (Diagnosis.isAt index) =
      (failures settings visits).flatMap (Visit.warnings settings) := by
  induction visits with
  | nil => rfl
  | cons visit rest ih =>
      have later := ih fun other member => apart other (List.mem_cons_of_mem _ member)
      have here := apart visit List.mem_cons_self
      rw [List.flatMap_cons, List.filter_append, later]
      cases verdict : visit.succeeds settings with
      | true =>
          have none : (visit.warnings settings).filter (Diagnosis.isAt index) = [] := by
            rw [List.filter_eq_nil_iff]
            intro warning member
            rw [isAt_of_mem_warnings member, decide_eq_true_eq, here, verdict]
            exact Bool.noConfusion
          simp [none, failures, verdict]
      | false =>
          have all : (visit.warnings settings).filter (Diagnosis.isAt index) =
              visit.warnings settings := by
            rw [List.filter_eq_self]
            intro warning member
            rw [isAt_of_mem_warnings member, decide_eq_true_eq, here, verdict]
          simp [all, failures, verdict]

theorem errors_of_failures (visits : List Visit) :
    visits.filterMap (Visit.error? settings) =
      (failures settings visits).filterMap (Visit.error? settings) := by
  rw [failures, List.filterMap_filter]
  apply List.filterMap_congr
  intro visit _
  rw [Visit.error?, Visit.succeeds]
  cases (visit.elaborate settings).outcome <;> rfl

structure HaltedAt (settings : Settings) (run : Run) (visit : Visit) (diagnosis : Diagnosis) :
    Prop where
  index : run.position = visit.index
  remaining : run.remaining = visit.step :: visit.rest
  found : (visit.elaborate settings).outcome = .error diagnosis
  errors : run.errors = [diagnosis.atStep visit.mark visit.step.place]
  warnings : run.warnings.filter (Diagnosis.isAt run.position) = visit.warnings settings

theorem exists_haltedAt (halts : settings.haltOnError = true) {program : Program}
    (linked : program.Linked) (cut : (program.run settings).remaining ≠ []) :
    ∃ visit diagnosis, HaltedAt settings (program.run settings) visit diagnosis := by
  obtain ⟨skipped, ledger, _⟩ := Ledger.turns settings linked program.length
  change Ledger settings program (program.run settings) _ skipped at ledger
  generalize Run.visits settings program.length (.start program) = visits at ledger
  have early := ledger.remaining_ne_nil_iff.mp cut
  obtain ⟨_, failed⟩ := (ledger.early_iff (run_isOver settings linked)).mp early
  -- The run has ended before the program, so there is a failure, and it is the only one.
  obtain ⟨visit, only, index, remaining⟩ := (ledger.halted halts).resolve_left failed
  have member : visit ∈ failures settings visits := by
    rw [only]
    exact List.mem_cons_self
  obtain ⟨_, isFailure⟩ := List.mem_filter.mp member
  have fails : visit.succeeds settings = false := by simpa using isFailure
  obtain ⟨diagnosis, found⟩ := Visit.fails_iff.mp fails
  refine ⟨visit, diagnosis, index, remaining, found, ?_, ?_⟩
  · rw [ledger.errors, errors_of_failures, only]
    simp [Visit.error?, found]
  · rw [ledger.warnings, filter_warnings, only, List.flatMap_singleton]
    intro other among
    -- The cursor has gone past every step that succeeded, and stays at the one that failed.
    constructor
    · intro here
      by_contra succeeds
      have passed : other.index ∈ elaboratedAt settings visits :=
        List.mem_map_of_mem (List.mem_filter.mpr ⟨among, by simpa using succeeds⟩)
      have before := ledger.before_position.1 other.index passed
      omega
    · intro otherFails
      have failure : other ∈ failures settings visits :=
        List.mem_filter.mpr ⟨among, by simp [otherFails]⟩
      rw [only, List.mem_singleton] at failure
      rw [failure, index]

theorem Run.turns_of_over {run : Run} (ended : run.isOver settings = true) (count : Nat) :
    turns settings count run = run := by
  induction count with
  | zero => rfl
  | succ count ih => rw [turns, turn_of_none (visit?_eq_none_iff.mpr ended), ih]

theorem run_of_first_failure (halts : settings.haltOnError = true) {step : Step} {rest : Program}
    {diagnosis : Diagnosis}
    (found : (elaborateStep settings step rest).outcome = .error diagnosis) :
    ∃ events, Program.run settings (step :: rest) =
      ⟨0, step :: rest, [], [], [diagnosis.atStep ⟨0, step.label⟩ step.place],
        Visit.warnings settings ⟨0, step, rest⟩, events⟩ := by
  have going : (Run.start (step :: rest)).isOver settings = false := by
    simp [Run.isOver, Run.start, Run.ok]
  have visited : (Run.start (step :: rest)).visit? settings = some ⟨0, step, rest⟩ :=
    Run.visit?_eq_some_iff.mpr ⟨going, rfl, rfl⟩
  have fails : Visit.succeeds settings ⟨0, step, rest⟩ = false :=
    Visit.fails_iff.mpr ⟨diagnosis, found⟩
  have first : (Run.start (step :: rest)).turn settings =
      (Run.start (step :: rest)).attempt settings ⟨0, step, rest⟩ := by
    rw [Run.turn_of_visit visited, fails]
    rfl
  have ended : ((Run.start (step :: rest)).attempt settings ⟨0, step, rest⟩).isOver settings =
      true := by
    simp [Run.attempt, Visit.elaborate, found, Run.fail, halts, Run.isOver, Run.ok]
  rw [Program.run, List.length_cons, Run.turns, first, Run.turns_of_over ended]
  simp only [Run.attempt, Visit.elaborate, found, Run.fail, halts, if_true, Run.start,
    List.nil_append]
  exact ⟨_, rfl⟩

end Halted

section Again

variable {settings : Settings} {step again : Step} {rest restAgain : Program}

theorem fails_alike (same : again.bare = step.bare)
    (restSame : restAgain.map Step.bare = rest.map Step.bare) {diagnosis : Diagnosis}
    (found : (elaborateStep settings step rest).outcome = .error diagnosis) :
    ∃ repeated, (elaborateStep settings again restAgain).outcome = .error repeated ∧
      repeated.bare = diagnosis.bare := by
  have outcome := elaborateStep_bare settings again restAgain
  rw [same, restSame, elaborateStep_bare, found] at outcome
  cases foundAgain : (elaborateStep settings again restAgain).outcome with
  | ok next =>
      rw [foundAgain] at outcome
      cases outcome
  | error repeated =>
      rw [foundAgain] at outcome
      exact ⟨repeated, rfl, (Except.error.inj outcome).symm⟩

theorem repeats_of_bare {diagnosis repeated : Diagnosis} (same : repeated.bare = diagnosis.bare)
    (index : Nat) (label : String) (place placeAgain : Option Location) :
    Repeats index (diagnosis.atStep ⟨index, label⟩ place)
      (repeated.atStep ⟨0, label⟩ placeAgain) := by
  -- The details come from the cause and the mark, and no place is among them.
  have cause : repeated.cause = diagnosis.cause := (Diagnosis.mk.inj same).1
  refine ⟨congrArg Cause.kind cause, congrArg Cause.message cause, ?_⟩
  refine ⟨diagnosis.cause.details, label, rfl, ?_⟩
  rw [← cause]
  rfl

theorem warnings_repeat (same : again.bare = step.bare)
    (restSame : restAgain.map Step.bare = rest.map Step.bare) (index : Nat) :
    List.Forall₂ (Repeats index) (Visit.warnings settings ⟨index, step, rest⟩)
      (Visit.warnings settings ⟨0, again, restAgain⟩) := by
  have label : again.label = step.label := Step.label_of_bare same
  have warnings := warnings_elaborateStep_bare settings again restAgain
  rw [same, restSame, warnings_elaborateStep_bare, ← List.forall₂_eq_eq_eq,
    List.forall₂_map_left_iff, List.forall₂_map_right_iff] at warnings
  simp only [Visit.warnings, Visit.elaborate, Visit.mark, label, List.forall₂_map_left_iff,
    List.forall₂_map_right_iff]
  exact warnings.imp fun _ _ bare => repeats_of_bare bare.symm index _ _ _

theorem HaltedAt.resumes (halts : settings.haltOnError = true) {run : Run} {visit : Visit}
    {diagnosis : Diagnosis} (halted : HaltedAt settings run visit diagnosis) {reread : Program}
    (same : reread.map Step.bare = run.remaining.map Step.bare) :
    Resumes run (reread.run settings) := by
  rw [halted.remaining] at same
  cases reread with
  | nil => cases same
  | cons again restAgain =>
      obtain ⟨stepSame, restSame⟩ := List.cons.inj same
      obtain ⟨repeated, found, bare⟩ := fails_alike stepSame restSame halted.found
      have label : again.label = visit.step.label := Step.label_of_bare stepSame
      have text : Program.text (again :: restAgain) = Program.text run.remaining := by
        rw [← Program.text_bare, same, ← halted.remaining, Program.text_bare]
      obtain ⟨events, run⟩ := run_of_first_failure halts found
      rw [run]
      exact {
        position := rfl
        elaborated := rfl
        skipped := rfl
        errors := by
          refine ⟨_, _, halted.errors, rfl, ?_⟩
          rw [label, Visit.mark, ← halted.index]
          exact repeats_of_bare bare _ _ _ _
        warnings := by
          rw [halted.warnings, halted.index]
          exact warnings_repeat stepSame restSame visit.index
        halted := List.cons_ne_nil _ _
        remaining := text }

end Again

/-- What remains of a program can be written and read back. -/
theorem remaining_reads_back (settings : Settings) {source origin : String} {program : Program}
    (parsed : parseProgram source origin = .ok program) (file : String) :
    ∃ reread, parseProgram (Program.text (program.run settings).remaining) file = .ok reread ∧
      reread.map Step.bare = (program.run settings).remaining.map Step.bare := by
  obtain ⟨linked, readable⟩ := linked_of_parseProgram parsed
  obtain ⟨_, ledger, _⟩ := Ledger.turns settings linked program.length
  have names := namesAre_remaining (fun _ => isName_prime) settings readable program.length
  exact Program.parse_text (linked.of_outlines ledger.remaining) names file

/-- The text that a halted check reports is a program again, and checking it meets the
same failure at once. -/
theorem halted_check_resumes (settings : Settings) (halts : settings.haltOnError = true)
    (source file : String) (cut : (checkSource settings source file).remaining ≠ [])
    (other : String) :
    let run := checkSource settings source file
    (∃ reread, parseProgram (Program.text run.remaining) other = .ok reread ∧
      reread.map Step.bare = run.remaining.map Step.bare) ∧
    Resumes run (checkSource settings (Program.text run.remaining) other) := by
  intro run
  cases parsed : parseProgram source file with
  | error diagnosis =>
      rw [checkSource, parsed] at cut
      exact absurd rfl cut
  | ok program =>
      have isRun : run = program.run settings := by
        simp only [run, checkSource, parsed]
      rw [checkSource, parsed] at cut
      obtain ⟨visit, diagnosis, halted⟩ :=
        exists_haltedAt halts (linked_of_parseProgram parsed).1 cut
      obtain ⟨reread, read, same⟩ := remaining_reads_back settings parsed other
      rw [isRun]
      refine ⟨⟨reread, read, same⟩, ?_⟩
      rw [checkSource, read]
      exact halted.resumes halts same

/-- The claim is met with a warning and an error, and a binder in it has a new name. -/
theorem refused_claim_resumes :
    let settings : Settings := { captureAvoiding := true }
    let source := "let a = z; let b = a; " ++
      "theorem t : forall (x : Type) (y : Type), Type := fun (z : Type) => a; b"
    let run := checkSource settings source ""
    settings.haltOnError = true ∧
      Program.text run.remaining = "theorem t : (forall (x : Type), (forall (y : Type), Type)) " ++
        ":= (fun (z' : Type) => z);\nb" ∧
      (∃ reread, parseProgram (Program.text run.remaining) "" = .ok reread ∧
        reread.map Step.bare = run.remaining.map Step.bare) ∧
      Resumes run (checkSource settings (Program.text run.remaining) "") := by
  intro settings source run
  have text : Program.text run.remaining =
      "theorem t : (forall (x : Type), (forall (y : Type), Type)) " ++
        ":= (fun (z' : Type) => z);\nb" := by
    dsimp only [run, source, settings]
    cbv
  have cut : run.remaining ≠ [] := by
    intro none
    rw [none] at text
    revert text
    decide
  exact ⟨rfl, text, halted_check_resumes settings rfl source "" cut ""⟩

end TypeInType
