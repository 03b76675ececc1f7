import TypeInType.Proofs.Widening

/-!
A run that keeps going behind a failure, beside the one that halts there. What a step becomes
does not depend on which of them it is, so up to the first failure both are one run; from
there on the one stands still, and the other only adds to what both have found.
-/

namespace TypeInType

def Settings.halting (settings : Settings) (halts : Bool) : Settings :=
  { settings with haltOnError := halts }

/-! What becomes of a step is settled before the run decides whether to go on. -/

section Steps

variable (settings : Settings) (halts : Bool)

theorem haltOnError_halting : (settings.halting halts).haltOnError = halts := rfl

theorem elaboratesMore_halting (kind : String) :
    settings.ElaboratesMore kind (settings.halting halts) :=
  ⟨rfl, rfl, .inl rfl, fun _ _ _ => rfl⟩

theorem kind_ne_empty (cause : Cause) : cause.kind ≠ "" := by
  cases cause <;> simp [Cause.kind]

theorem elaborate_halting (visit : Visit) :
    visit.elaborate (settings.halting halts) = visit.elaborate settings := by
  -- Nothing is left out here, as no diagnosis is of the empty kind.
  apply elaborateStep_agrees (elaboratesMore_halting settings halts "")
  exact ⟨fun diagnosis _ => kind_ne_empty diagnosis.cause,
    fun warning _ => kind_ne_empty warning.cause⟩

end Steps

theorem lookup_step_index {diagnosis : Diagnosis} {mark : StepMark}
    (atMark : diagnosis.step = some mark) :
    diagnosis.details.lookup "step_index" = some (.integer mark.index) := by
  rw [Diagnosis.details, atMark]
  cases diagnosis.cause <;> rfl

namespace Run

/-- The later run has come at least as far, and what it has found since stands behind what was
found before. -/
structure Extends (run later : Run) : Prop where
  position : run.position ≤ later.position
  elaborated : run.elaborated <+: later.elaborated
  skipped : run.skipped <+: later.skipped
  warnings : run.warnings <+: later.warnings
  errors : ∃ found, later.errors = run.errors ++ found ∧
    ∀ error ∈ found, ∃ mark, error.step = some mark ∧ run.position ≤ mark.index

variable {settings : Settings} {run later last : Run} {visit : Visit}

theorem Extends.refl (run : Run) : run.Extends run :=
  ⟨Nat.le_refl _, List.prefix_rfl, List.prefix_rfl, List.prefix_rfl, [], by simp⟩

theorem Extends.trans (first : run.Extends later) (second : later.Extends last) :
    run.Extends last := by
  obtain ⟨found, errors, marked⟩ := first.errors
  obtain ⟨foundLater, errorsLater, markedLater⟩ := second.errors
  refine ⟨Nat.le_trans first.position second.position, first.elaborated.trans second.elaborated,
    first.skipped.trans second.skipped, first.warnings.trans second.warnings,
    found ++ foundLater, by rw [errorsLater, errors, List.append_assoc], ?_⟩
  intro error member
  rcases List.mem_append.mp member with earlier | since
  · exact marked error earlier
  · obtain ⟨mark, atMark, after⟩ := markedLater error since
    exact ⟨mark, atMark, Nat.le_trans first.position after⟩

theorem extends_attempt (visited : run.visit? settings = some visit) :
    run.Extends (run.attempt settings visit) := by
  obtain ⟨_, index, _⟩ := visit?_eq_some_iff.mp visited
  rw [attempt]
  cases (visit.elaborate settings).outcome with
  | ok next =>
      exact ⟨Nat.le_succ _, List.prefix_append _ _, List.prefix_rfl, List.prefix_append _ _,
        [], by simp [finish]⟩
  | error diagnosis =>
      have marked : ∀ error ∈ [diagnosis.atStep visit.mark visit.step.place],
          ∃ mark, error.step = some mark ∧ run.position ≤ mark.index := by
        intro error member
        rw [List.mem_singleton.mp member]
        exact ⟨visit.mark, rfl, Nat.le_of_eq index⟩
      dsimp only [fail]
      split
      · exact ⟨Nat.le_refl _, List.prefix_rfl, List.prefix_rfl, List.prefix_append _ _,
          _, rfl, marked⟩
      · exact ⟨Nat.le_succ _, List.prefix_rfl, List.prefix_rfl, List.prefix_append _ _,
          _, rfl, marked⟩

theorem extends_skip (run : Run) : run.Extends run.skip := by
  cases standing : run.remaining with
  | nil =>
      rw [skip, standing]
      exact .refl run
  | cons step rest =>
      rw [skip, standing]
      exact ⟨Nat.le_succ _, List.prefix_rfl, List.prefix_append _ _, List.prefix_rfl, [], by simp⟩

theorem extends_turn (settings : Settings) (run : Run) : run.Extends (run.turn settings) := by
  cases visited : run.visit? settings with
  | none =>
      rw [turn_of_none visited]
      exact .refl run
  | some visit =>
      rw [turn_of_visit visited]
      split
      · exact (extends_attempt visited).trans (extends_skip _)
      · exact extends_attempt visited

theorem length_skip (run : Run) :
    run.skip.position + run.skip.remaining.length = run.position + run.remaining.length := by
  cases standing : run.remaining with
  | nil => rw [skip, standing, standing]
  | cons step rest =>
      obtain ⟨position, remaining, _⟩ := skip_of_cons standing
      rw [position, remaining, List.length_cons]
      omega

theorem length_attempt (visited : run.visit? settings = some visit) :
    (run.attempt settings visit).position + (run.attempt settings visit).remaining.length =
      run.position + run.remaining.length := by
  obtain ⟨_, _, standing⟩ := visit?_eq_some_iff.mp visited
  cases found : (visit.elaborate settings).outcome with
  | ok next =>
      have same := congrArg List.length (outlines_elaborateStep found)
      rw [Program.length_outlines, Program.length_outlines] at same
      obtain ⟨position, remaining, _⟩ := attempt_of_ok run found
      rw [position, remaining, standing, List.length_cons, same]
      omega
  | error diagnosis =>
      cases halts : settings.haltOnError with
      | true =>
          obtain ⟨position, remaining, _⟩ := attempt_halting run found halts
          rw [position, remaining]
      | false =>
          obtain ⟨position, remaining, _⟩ := attempt_passing run found halts
          rw [position, remaining, standing, List.length_cons]
          omega

/-! Two runs side by side. -/

structure Parted (halted whole : Run) : Prop where
  error : ∃ error mark, halted.errors = [error] ∧ error.step = some mark ∧
    mark.index = halted.position
  passed : Extends { halted with position := halted.position + 1 } whole

/-- There is no failure yet, and both runs are one, or they have parted. -/
def Beside (halted whole : Run) : Prop :=
  halted.errors = [] ∧ whole = halted ∨ Parted halted whole

theorem Parted.reports {halted whole : Run} (parted : Parted halted whole) :
    ∃ error later, halted.errors = [error] ∧ whole.errors = error :: later ∧
      error.details.lookup "step_index" = some (.integer halted.position) ∧
      ∀ other ∈ later, ∃ index : Nat, halted.position < index ∧
        other.details.lookup "step_index" = some (.integer index) := by
  obtain ⟨error, mark, only, atMark, index⟩ := parted.error
  obtain ⟨later, errors, marked⟩ := parted.passed.errors
  refine ⟨error, later, only, errors.trans (congrArg (· ++ later) only), ?_, ?_⟩
  · rw [← index]
    exact lookup_step_index atMark
  · intro other member
    obtain ⟨otherMark, otherAt, after⟩ := marked other member
    exact ⟨otherMark.index, after, lookup_step_index otherAt⟩

theorem Parted.turn {halted whole : Run} (parted : Parted halted whole) (settings : Settings) :
    Parted (halted.turn (settings.halting true)) (whole.turn (settings.halting false)) := by
  obtain ⟨_, _, only, _⟩ := parted.error
  have ended : halted.isOver (settings.halting true) = true := by
    simp [isOver, ok, only, haltOnError_halting]
  rw [turn_of_none (visit?_eq_none_iff.mpr ended)]
  exact ⟨parted.error, parted.passed.trans (extends_turn _ whole)⟩

/-- A turn of one run, taken under either setting. -/
theorem beside_turn (settings : Settings) {run : Run} (fine : run.errors = []) :
    Beside (run.turn (settings.halting true)) (run.turn (settings.halting false)) := by
  have visits : run.visit? (settings.halting true) = run.visit? (settings.halting false) := by
    simp [visit?, isOver, ok, fine]
  cases visited : run.visit? (settings.halting false) with
  | none =>
      rw [turn_of_none visited, turn_of_none (visits.trans visited)]
      exact .inl ⟨fine, rfl⟩
  | some visit =>
      have elaborated := elaborate_halting settings
      rw [turn_of_visit visited, turn_of_visit (visits.trans visited), Visit.succeeds,
        Visit.succeeds, elaborated, elaborated]
      cases found : (visit.elaborate settings).outcome with
      | ok next =>
          have together : run.attempt (settings.halting true) visit =
              run.attempt (settings.halting false) visit := by
            simp only [attempt, Visit.warnings, elaborated, found]
          have errors : (run.attempt (settings.halting false) visit).errors = [] := by
            simp only [attempt, elaborated, found, finish, fine]
          rw [together]
          refine .inl ⟨?_, rfl⟩
          split
          · rw [skip]
            split <;> exact errors
          · exact errors
      | error diagnosis =>
          obtain ⟨_, index, _⟩ := visit?_eq_some_iff.mp visited
          -- The step fails in both runs. One stays at it, the other goes past it.
          simp only [Except.isOk, Except.toBool, Bool.false_and, Bool.false_eq_true, if_false,
            attempt, Visit.warnings, elaborated, found, fail, haltOnError_halting, if_true, fine,
            List.nil_append]
          exact .inr ⟨⟨_, visit.mark, rfl, rfl, index.symm⟩, Nat.le_refl _, List.prefix_rfl,
            List.prefix_rfl, List.prefix_rfl, [], by simp⟩

theorem beside_turns (settings : Settings) (count : Nat) {halted whole : Run}
    (beside : Beside halted whole) :
    Beside (turns (settings.halting true) count halted)
      (turns (settings.halting false) count whole) := by
  induction count generalizing halted whole with
  | zero => exact beside
  | succ count ih =>
      apply ih
      rcases beside with ⟨fine, rfl⟩ | parted
      · exact beside_turn settings fine
      · exact .inr (parted.turn settings)

end Run

theorem position_add_length (settings : Settings) (program : Program) (count : Nat) :
    (Run.turns settings count (.start program)).position +
      (Run.turns settings count (.start program)).remaining.length = program.length := by
  refine @Run.turns_induction settings (fun run _ =>
    run.position + run.remaining.length = program.length) _ (Nat.zero_add _) ?_ ?_ count
  · intro run _ visit kept visited _
    exact (Run.length_attempt visited).trans kept
  · intro run _ visit kept visited _ _ _
    exact (Run.length_skip _).trans ((Run.length_attempt visited).trans kept)

theorem run_finishes {settings : Settings} (goes : settings.haltOnError = false)
    (program : Program) :
    (program.run settings).position = program.length ∧ (program.run settings).remaining = [] := by
  have whole : (program.run settings).position + (program.run settings).remaining.length =
      program.length := position_add_length settings program program.length
  have far : (program.run settings).isOver settings = true ∨
      0 + program.length ≤ (program.run settings).position :=
    Run.turns_progress settings program.length (.start program)
  have none : (program.run settings).remaining = [] := by
    rcases far with ended | far
    · simpa [Run.isOver, goes] using ended
    · exact List.eq_nil_of_length_eq_zero (by omega)
  rw [none, List.length_nil, Nat.add_zero] at whole
  exact ⟨whole, none⟩

/-- Keeping going extends the run that halts. Where nothing fails they are the same run. Else
what the halting run has found is the beginning of what the other finds: the one error of the
halting run comes first, it was met in the step that run stands at, and all other errors
were met in later steps. -/
theorem keeping_going_extends_halting (settings : Settings) (program : Program) :
    let halted := program.run (settings.halting true)
    let whole := program.run (settings.halting false)
    halted.ok = whole.ok ∧ (halted.ok = true → whole = halted) ∧
      whole.position = program.length ∧ whole.remaining = [] ∧
      (halted.ok = false →
        halted.elaborated <+: whole.elaborated ∧ halted.skipped <+: whole.skipped ∧
        halted.errors <+: whole.errors ∧ halted.warnings <+: whole.warnings ∧
        ∃ error later, halted.errors = [error] ∧ whole.errors = error :: later ∧
          error.details.lookup "step_index" = some (.integer halted.position) ∧
          ∀ other ∈ later, ∃ index : Nat, halted.position < index ∧
            other.details.lookup "step_index" = some (.integer index)) := by
  intro halted whole
  have goes : (settings.halting false).haltOnError = false := rfl
  obtain ⟨position, remaining⟩ := run_finishes goes program
  have beside : Run.Beside halted whole :=
    Run.beside_turns settings program.length (.inl ⟨rfl, rfl⟩)
  rcases beside with ⟨fine, same⟩ | parted
  · have isOk : halted.ok = true := by simp [Run.ok, fine]
    refine ⟨by rw [same], fun _ => same, position, remaining, fun failed => ?_⟩
    rw [isOk] at failed
    cases failed
  · obtain ⟨error, later, only, errors, found⟩ := parted.reports
    have notOk : halted.ok = false := by simp [Run.ok, only]
    have prefixed : halted.errors <+: whole.errors := ⟨later, by rw [only, errors]; rfl⟩
    refine ⟨by simp [Run.ok, only, errors], fun isOk => ?_, position, remaining,
      fun _ => ⟨parted.passed.elaborated, parted.passed.skipped, prefixed,
        parted.passed.warnings, error, later, only, errors, found⟩⟩
    rw [notOk] at isOk
    cases isOk

/-- Two proofs are refused, and the run that keeps going elaborates what stands between them. -/
example :
    let settings : Settings := { skipAfterSubstitution := false }
    let program : Program := [.define "a" (.sort none) none,
      .prove ⟨"t", .sort none, .var "b" none⟩ none, .define "c" (.var "a" none) none,
      .prove ⟨"u", .sort none, .var "d" none⟩ none]
    (program.run (settings.halting true)).position = 1 ∧
      (program.run (settings.halting true)).elaborated = ["a"] ∧
      (program.run (settings.halting false)).elaborated = ["a", "c"] ∧
      (program.run (settings.halting false)).errors.length = 2 := by
  cbv

end TypeInType
