import TypeInType.Proofs.FreeNames
import TypeInType.Proofs.Plugging

/-!
Definitions and theorems that use nothing of the program around them. What such a step puts
into the steps behind it is closed, so no binder can capture anything in it and none is
renamed: the value is plugged in where its name is free. Two closed values meet nowhere, and
it does not matter which of them is put in first.
-/

namespace TypeInType

namespace Term

theorem plug_of_closed (stops : Bool) {term : Term} (closed : term.freeNames = [])
    (name : String) (value : Term) : term.plug stops name value = term :=
  plug_of_not_free stops term name value (closed ▸ List.not_mem_nil)

/-- For a closed value no binder has to give way, so the supply is not drawn on. -/
theorem replace_of_closed {value : Term} (closed : value.freeNames = []) (term : Term)
    (name : String) (supply : NameSupply) :
    term.replace name value supply = (term.plug false name value, supply) := by
  apply replace_of_uncaptured
  rintro binder _ ⟨_, member, _⟩
  rw [closed] at member
  cases member

/-- Two closed values are put in for two names in either order. -/
theorem plug_comm (stops : Bool) {left right : Term} (leftClosed : left.freeNames = [])
    (rightClosed : right.freeNames = []) {leftName rightName : String}
    (differ : leftName ≠ rightName) (term : Term) :
    (term.plug stops leftName left).plug stops rightName right =
      (term.plug stops rightName right).plug stops leftName left := by
  induction term with
  | sort place => rfl
  | var name place =>
      by_cases isLeft : name = leftName
      · simp [plug, isLeft, differ, plug_of_closed stops leftClosed]
      · by_cases isRight : name = rightName
        · simp [plug, isRight, differ.symm, plug_of_closed stops rightClosed]
        · simp [plug, isLeft, isRight]
  | app function argument place functionIH argumentIH =>
      rw [plug, plug, plug, plug, functionIH, argumentIH]
  | bind kind bound domain body place domainIH bodyIH =>
      -- A binder of one of the names stops that value before and behind the other.
      by_cases isLeft : bound = leftName
      · cases stops <;> simp [plug, isLeft, differ, domainIH]
      · by_cases isRight : bound = rightName
        · cases stops <;> simp [plug, isRight, differ.symm, domainIH]
        · simp [plug, isLeft, isRight, domainIH, bodyIH]

end Term

/-! Programs. -/

def Step.mapTerms (change : Term → Term) : Step → Step
  | .define name value place => .define name (change value) place
  | .prove claim place => .prove ⟨claim.name, change claim.statement, change claim.proof⟩ place
  | .express value place => .express (change value) place

theorem Step.mapTerms_congr {change other : Term → Term} {step : Step}
    (same : ∀ term ∈ step.terms, change term = other term) :
    step.mapTerms change = step.mapTerms other := by
  cases step <;> simp_all [terms, mapTerms]

theorem Step.mapTerms_id (step : Step) : step.mapTerms id = step := by
  cases step <;> rfl

section Programs

variable (settings : Settings) {value left right : Term} {leftName rightName : String}

theorem Program.substituteAvoiding_of_closed (closed : value.freeNames = []) (program : Program)
    (name : String) (supply : NameSupply) :
    (program.substituteAvoiding name value supply).1 =
      program.map (Step.mapTerms (Term.plug false · name value)) := by
  induction program generalizing supply with
  | nil => rfl
  | cons step rest ih =>
      simp only [substituteAvoiding, ih, List.map_cons]
      cases step <;>
        simp only [Step.substituteAvoiding, Step.mapTerms, Term.substituteAvoiding,
          Term.replace_of_closed closed]

theorem Program.inline_of_closed (closed : value.freeNames = []) (program : Program)
    (name : String) :
    program.inline settings name value =
      program.map (Step.mapTerms (Term.plug (!settings.captureAvoiding) · name value)) := by
  rw [inline]
  cases settings.captureAvoiding with
  | true => exact substituteAvoiding_of_closed closed program name .empty
  | false =>
      apply List.map_congr_left
      intro step _
      cases step <;> simp [Step.substitute, Step.mapTerms, Term.substitute_eq_plug]

theorem Program.inline_comm (leftClosed : left.freeNames = [])
    (rightClosed : right.freeNames = []) (differ : leftName ≠ rightName) (program : Program) :
    (program.inline settings leftName left).inline settings rightName right =
      (program.inline settings rightName right).inline settings leftName left := by
  simp only [inline_of_closed settings leftClosed, inline_of_closed settings rightClosed,
    List.map_map]
  apply List.map_congr_left
  intro step _
  cases step <;>
    simp only [Function.comp, Step.mapTerms, Term.plug_comm _ leftClosed rightClosed differ]

theorem Program.inline_past_closed (closed : value.freeNames = []) (name : String) {step : Step}
    (stepClosed : ∀ term ∈ step.terms, term.freeNames = []) (rest : Program) :
    Program.inline settings (step :: rest) name value =
      step :: rest.inline settings name value := by
  rw [inline_of_closed settings closed, inline_of_closed settings closed, List.map_cons]
  congr 1
  refine Eq.trans (Step.mapTerms_congr fun term member => ?_) step.mapTerms_id
  exact Term.plug_of_closed _ (stepClosed term member) name value

end Programs

/-- A declaration that succeeds before one program succeeds before every program, and puts the
same value into each. -/
theorem elaborateStep_before {settings : Settings} {step : Step} {name : String} {body : Term}
    (declares : step.declared? = some (name, body)) {rest next : Program}
    (found : (elaborateStep settings step rest).outcome = .ok next) :
    ∃ value, settings.reduce (.sort none) body = .ok value ∧
      ∀ other,
        (elaborateStep settings step other).outcome = .ok (other.inline settings name value) := by
  cases step with
  | define given value place =>
      cases declares
      rw [elaborateStep_define, bind_eq_ok_iff] at found
      obtain ⟨reduced, returned, _⟩ := found
      refine ⟨reduced, returned, fun other => ?_⟩
      rw [elaborateStep_define, returned]
      rfl
  | prove claim place =>
      cases declares
      obtain ⟨stated, proof, proved, _⟩ := elaborateTheorem_ok_iff.mp found
      obtain ⟨_, _, _, reduced, _⟩ := checkProof_ok_iff.mp proved
      exact ⟨proof, reduced, fun _ => elaborateTheorem_ok_iff.mpr ⟨stated, proof, proved, rfl⟩⟩
  | express value place => cases declares

/-- A definition or theorem without free names that succeeds, before one program and so before
all. -/
structure Step.SelfContained (settings : Settings) (step : Step) : Prop where
  declares : step.isDeclaration = true
  closed : ∀ term ∈ step.terms, term.freeNames = []
  succeeds : ∃ rest next, (elaborateStep settings step rest).outcome = .ok next

theorem Step.SelfContained.inlines {settings : Settings} {step : Step}
    (selfContained : step.SelfContained settings) :
    ∃ value, value.freeNames = [] ∧ ∀ rest,
      (elaborateStep settings step rest).outcome = .ok (rest.inline settings step.label value) := by
  obtain ⟨_, _, found⟩ := selfContained.succeeds
  have declares := selfContained.declares
  rw [isDeclaration_eq, Option.isSome_iff_exists] at declares
  obtain ⟨⟨name, body⟩, declares⟩ := declares
  obtain ⟨value, reduced, inlines⟩ := elaborateStep_before declares found
  have own : body ∈ step.terms ∧ name = step.label := by
    cases step <;> cases declares <;> simp [terms, label]
  refine ⟨value, ?_, own.2 ▸ inlines⟩
  have bodyClosed := selfContained.closed body own.1
  exact List.eq_nil_of_subset_nil (bodyClosed ▸ freeNames_reduce reduced)

/-! What a run has found before has no say in what it finds next. -/

namespace Run

def after (elaborated : List String) (warnings : List Diagnosis) (events : List Event)
    (run : Run) : Run :=
  { run with
    elaborated := elaborated ++ run.elaborated
    warnings := warnings ++ run.warnings
    events := events ++ run.events }

variable {settings : Settings} (elaborated : List String) (warnings : List Diagnosis)
  (events : List Event)

theorem skip_after (run : Run) :
    (run.after elaborated warnings events).skip = run.skip.after elaborated warnings events := by
  cases standing : run.remaining <;> simp [skip, after, standing]

theorem attempt_after (run : Run) (visit : Visit) :
    (run.after elaborated warnings events).attempt settings visit =
      (run.attempt settings visit).after elaborated warnings events := by
  simp only [attempt]
  cases (visit.elaborate settings).outcome with
  | ok next => simp [finish, after]
  | error diagnosis =>
      simp only [fail]
      split <;> simp [after]

theorem turn_after (run : Run) :
    (run.after elaborated warnings events).turn settings =
      (run.turn settings).after elaborated warnings events := by
  have visits : (run.after elaborated warnings events).visit? settings = run.visit? settings := rfl
  cases visited : run.visit? settings with
  | none => rw [turn_of_none visited, turn_of_none (visits.trans visited)]
  | some visit =>
      rw [turn_of_visit visited, turn_of_visit (visits.trans visited), attempt_after, skip_after]
      split <;> rfl

theorem turns_after (count : Nat) (run : Run) :
    turns settings count (run.after elaborated warnings events) =
      (turns settings count run).after elaborated warnings events := by
  induction count generalizing run with
  | zero => rfl
  | succ count ih => rw [turns, turns, turn_after, ih]

theorem turn_of_success (run : Run) (passes : settings.skipAfterSubstitution = false)
    {step : Step} {rest next : Program} (fine : run.errors = [])
    (standing : run.remaining = step :: rest)
    (found : (elaborateStep settings step rest).outcome = .ok next) :
    ∃ warnings events, run.turn settings =
      ⟨run.position + 1, next, run.elaborated ++ [step.label], run.skipped, [], warnings,
        events⟩ := by
  have going : run.isOver settings = false := by simp [isOver, ok, standing, fine]
  have visited : run.visit? settings = some ⟨run.position, step, rest⟩ :=
    visit?_eq_some_iff.mpr ⟨going, rfl, standing⟩
  have succeeds : (Visit.elaborate settings ⟨run.position, step, rest⟩).outcome = .ok next := found
  rw [turn_of_visit visited, passes, Bool.and_false, attempt, succeeds, ← fine]
  exact ⟨_, _, rfl⟩

theorem run_two_steps (passes : settings.skipAfterSubstitution = false) {first second : Step}
    {rest behind remaining : Program}
    (firstFound : (elaborateStep settings first (second :: rest)).outcome = .ok (second :: behind))
    (secondFound : (elaborateStep settings second behind).outcome = .ok remaining) :
    ∃ warnings events, Program.run settings (first :: second :: rest) =
      (turns settings rest.length ⟨2, remaining, [], [], [], [], []⟩).after
        [first.label, second.label] warnings events := by
  obtain ⟨earlyWarnings, earlyEvents, firstTurn⟩ :=
    turn_of_success (.start (first :: second :: rest)) passes rfl rfl firstFound
  obtain ⟨warnings, events, secondTurn⟩ :=
    turn_of_success ⟨1, second :: behind, [first.label], [], [], earlyWarnings, earlyEvents⟩ passes
      rfl rfl secondFound
  have reached : turns settings 2 (.start (first :: second :: rest)) =
      (⟨2, remaining, [], [], [], [], []⟩ : Run).after [first.label, second.label] warnings
        events := by
    rw [turns, turns, firstTurn]
    exact secondTurn.trans (by simp [after])
  refine ⟨warnings, events, ?_⟩
  rw [← turns_after, ← reached]
  rfl

end Run

/-- Two definitions or theorems, none of which uses anything around it, can be exchanged. Both
ways they leave the same steps behind them, bound names and places included, and the two
programs come to the same end, with the two names exchanged in what has been elaborated. -/
theorem independent_steps_commute {settings : Settings}
    (passes : settings.skipAfterSubstitution = false) {first second : Step}
    (firstStands : first.SelfContained settings) (secondStands : second.SelfContained settings)
    (differ : first.label ≠ second.label) (rest : Program) :
    let run := Program.run settings (first :: second :: rest)
    let swapped := Program.run settings (second :: first :: rest)
    (∃ behindFirst behindSecond remaining,
      (elaborateStep settings first (second :: rest)).outcome = .ok (second :: behindFirst) ∧
      (elaborateStep settings second behindFirst).outcome = .ok remaining ∧
      (elaborateStep settings second (first :: rest)).outcome = .ok (first :: behindSecond) ∧
      (elaborateStep settings first behindSecond).outcome = .ok remaining) ∧
    swapped.ok = run.ok ∧ swapped.skipped = run.skipped ∧ swapped.position = run.position ∧
    swapped.errors = run.errors ∧ swapped.remaining = run.remaining ∧
    ∃ others, run.elaborated = first.label :: second.label :: others ∧
      swapped.elaborated = second.label :: first.label :: others := by
  intro run swapped
  obtain ⟨value, valueClosed, firstInlines⟩ := firstStands.inlines
  obtain ⟨other, otherClosed, secondInlines⟩ := secondStands.inlines
  let behindFirst := rest.inline settings first.label value
  let behindSecond := rest.inline settings second.label other
  let remaining := behindFirst.inline settings second.label other
  have firstFound : (elaborateStep settings first (second :: rest)).outcome =
      .ok (second :: behindFirst) := by
    rw [firstInlines, Program.inline_past_closed settings valueClosed _ secondStands.closed]
  have secondFound : (elaborateStep settings second (first :: rest)).outcome =
      .ok (first :: behindSecond) := by
    rw [secondInlines, Program.inline_past_closed settings otherClosed _ firstStands.closed]
  have secondLast : (elaborateStep settings second behindFirst).outcome = .ok remaining :=
    secondInlines behindFirst
  have firstLast : (elaborateStep settings first behindSecond).outcome = .ok remaining := by
    rw [firstInlines, Program.inline_comm settings otherClosed valueClosed differ.symm]
  obtain ⟨_, _, reached⟩ := Run.run_two_steps passes firstFound secondLast
  obtain ⟨_, _, swappedReached⟩ := Run.run_two_steps passes secondFound firstLast
  refine ⟨⟨behindFirst, behindSecond, remaining, firstFound, secondLast, secondFound, firstLast⟩,
    ?_⟩
  simp only [run, swapped, reached, swappedReached]
  exact ⟨rfl, rfl, rfl, rfl, rfl, _, rfl, rfl⟩

/-- What follows has a binder of the first name, which stands free in its annotation, and uses
the second name under it. -/
theorem definition_and_claim_commute :
    let settings : Settings := { captureAvoiding := true, skipAfterSubstitution := false }
    let first : Step := .define "A" (.sort none) none
    let second : Step := .prove ⟨"t", .pi "x" (.sort none) (.sort none) none,
      .lam "x" (.sort none) (.var "x" none) none⟩ none
    let rest : Program := [.prove ⟨"u", .var "A" none,
      .lam "A" (.var "A" none) (.app (.var "A" none) (.var "t" none) none) none⟩ none]
    first.SelfContained settings ∧ second.SelfContained settings ∧
      (Program.run settings (first :: second :: rest)).elaborated = ["A", "t"] ∧
      (Program.run settings (second :: first :: rest)).elaborated = ["t", "A"] ∧
      (Program.run settings (second :: first :: rest)).remaining =
        (Program.run settings (first :: second :: rest)).remaining ∧
      (Program.run settings (first :: second :: rest)).remaining ≠ [] := by
  intro settings first second rest
  have firstStands : first.SelfContained settings :=
    ⟨rfl, by decide, [], [], by cbv⟩
  have secondStands : second.SelfContained settings :=
    ⟨rfl, by decide, [], [], by cbv⟩
  obtain ⟨_, _, _, _, _, remaining, others, elaborated, swapped⟩ :=
    independent_steps_commute rfl firstStands secondStands (by decide) rest
  have reported : (Program.run settings (first :: second :: rest)).elaborated = ["A", "t"] := by
    cbv
  have halted : (Program.run settings (first :: second :: rest)).remaining.length = 1 := by
    cbv
  rw [reported] at elaborated
  obtain rfl : others = [] := by simpa [first, second, Step.label] using elaborated
  refine ⟨firstStands, secondStands, reported, swapped, remaining, fun none => ?_⟩
  rw [none] at halted
  cases halted

end TypeInType
