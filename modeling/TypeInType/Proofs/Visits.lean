import TypeInType.Program.Run
import TypeInType.Proofs.InlinedProof

/-!
A run as the sequence of its visits. A turn visits the step at the cursor: it
elaborates the step before the steps behind it, and if that succeeds the next step
may be skipped. All a run says about a program is said at its visits. What stays
of a step, whatever is put into its terms, is its outline.
-/

namespace TypeInType

inductive StepKind where
  | definition
  | claim
  | expression
  deriving DecidableEq, Repr

structure Outline where
  kind : StepKind
  label : String
  place : Option Location
  deriving DecidableEq, Repr

namespace Step

def kind : Step → StepKind
  | .define _ _ _ => .definition
  | .prove _ _ => .claim
  | .express _ _ => .expression

def outline (step : Step) : Outline :=
  ⟨step.kind, step.label, step.place⟩

def terms : Step → List Term
  | .define _ value _ => [value]
  | .prove claim _ => [claim.statement, claim.proof]
  | .express value _ => [value]

def declared? : Step → Option (String × Term)
  | .define name value _ => some (name, value)
  | .prove claim _ => some (claim.name, claim.proof)
  | .express _ _ => none

theorem isDeclaration_iff (step : Step) :
    step.isDeclaration = true ↔ step.outline.kind ≠ .expression := by
  cases step <;> simp [isDeclaration, outline, kind]

theorem isDeclaration_eq (step : Step) : step.isDeclaration = step.declared?.isSome := by
  cases step <;> rfl

theorem outline_substitute (step : Step) (name : String) (replacement : Term) :
    (step.substitute name replacement).outline = step.outline := by
  cases step <;> rfl

theorem outline_substituteAvoiding (step : Step) (name : String) (replacement : Term)
    (supply : NameSupply) :
    (step.substituteAvoiding name replacement supply).1.outline = step.outline := by
  cases step <;> rfl

end Step

namespace Program

def outlines (program : Program) : List Outline :=
  program.map Step.outline

theorem labels_eq_outlines (program : Program) :
    program.labels = program.outlines.map Outline.label := by
  rw [labels, outlines, List.map_map]
  rfl

theorem length_outlines (program : Program) : program.outlines.length = program.length :=
  List.length_map _

theorem outlines_substituteAvoiding (program : Program) (name : String) (replacement : Term)
    (supply : NameSupply) :
    (program.substituteAvoiding name replacement supply).1.outlines = program.outlines := by
  induction program generalizing supply with
  | nil => rfl
  | cons step rest ih =>
      simp only [substituteAvoiding, outlines, List.map_cons, List.cons.injEq]
      exact ⟨step.outline_substituteAvoiding name replacement supply, ih _⟩

theorem outlines_inline (settings : Settings) (program : Program) (name : String) (value : Term) :
    (inline settings program name value).outlines = program.outlines := by
  unfold inline
  split
  · exact outlines_substituteAvoiding program name value .empty
  · simp [substitute, outlines, Step.outline_substitute]

theorem linked_iff (program : Program) :
    program.Linked ↔ ∀ outline ∈ program.outlines.dropLast, outline.kind ≠ .expression := by
  simp only [Linked, outlines, ← List.map_dropLast, List.forall_mem_map, Step.isDeclaration_iff]

theorem Linked.of_outlines {program remaining : Program} (linked : program.Linked) {index : Nat}
    (same : remaining.outlines = program.outlines.drop index) : remaining.Linked := by
  rw [linked_iff] at linked ⊢
  intro outline member
  rw [same] at member
  -- A tail that is not empty ends with the program, so it loses the same last step.
  have more : program.outlines.drop index ≠ [] := by
    intro ended
    rw [ended] at member
    cases member
  apply linked
  rw [← List.take_append_drop index program.outlines, List.dropLast_append_of_ne_nil more]
  exact List.mem_append_right _ member

theorem Linked.of_expression {step : Step} {rest : Program} (linked : Linked (step :: rest))
    (expression : step.isDeclaration = false) : rest = [] := by
  cases rest with
  | nil => rfl
  | cons next rest =>
      have declares := linked step List.mem_cons_self
      rw [expression] at declares
      cases declares

end Program

/-! What becomes of each kind of step. -/

section Outcomes

variable (settings : Settings)

theorem checkStatement_outcome (claim : Theorem) :
    (checkStatement settings claim).outcome =
      match (typeOf settings claim.statement).outcome with
      | .ok _ => .ok []
      | .error diagnosis => if diagnosis.isAmbiguous then .ok [diagnosis] else .error diagnosis := by
  simp only [checkStatement]
  cases (typeOf settings claim.statement).outcome with
  | ok type => rfl
  | error diagnosis =>
      dsimp only
      split <;> rfl

theorem elaborateStep_define (name : String) (value : Term) (place : Option Location)
    (rest : Program) :
    (elaborateStep settings (.define name value place) rest).outcome = (do
      let value ← settings.reduce (.sort none) value
      .ok (rest.inline settings name value)) := by
  rw [elaborateStep, elaborateDefinition]
  cases settings.reduce (.sort none) value <;> rfl

theorem elaborateStep_prove (claim : Theorem) (place : Option Location) (rest : Program) :
    (elaborateStep settings (.prove claim place) rest).outcome = (do
      let _ ← (checkStatement settings claim).outcome
      let proof ← (checkProof settings claim).outcome
      .ok (rest.inline settings claim.name proof)) :=
  elaborateTheorem_outcome claim rest

theorem elaborateStep_express (value : Term) (place : Option Location) (rest : Program) :
    (elaborateStep settings (.express value place) rest).outcome =
      if settings.checkExpressionSteps then (do
        let _ ← (typeOf settings value).outcome
        .ok rest)
      else .ok rest := by
  simp only [elaborateStep, elaborateExpression]
  split
  · cases (typeOf settings value).outcome <;> rfl
  · rfl

/-! Only the statement of a theorem gives rise to warnings. -/

theorem warnings_define (name : String) (value : Term) (place : Option Location)
    (rest : Program) :
    (elaborateStep settings (.define name value place) rest).warnings = [] := by
  rw [elaborateStep, elaborateDefinition]
  split <;> rfl

theorem warnings_prove (claim : Theorem) (place : Option Location) (rest : Program) :
    (elaborateStep settings (.prove claim place) rest).warnings =
      match (checkStatement settings claim).outcome with
      | .ok warnings => warnings
      | .error _ => [] := by
  simp only [elaborateStep, elaborateTheorem]
  cases (checkStatement settings claim).outcome <;> rfl

theorem warnings_express (value : Term) (place : Option Location) (rest : Program) :
    (elaborateStep settings (.express value place) rest).warnings = [] := by
  simp only [elaborateStep, elaborateExpression]
  split <;> rfl

end Outcomes

/-- A step that succeeds leaves the rest alone, or puts the normal form of its term
in the place of its name. -/
theorem elaborateStep_ok {settings : Settings} {step : Step} {rest next : Program}
    (elaborated : (elaborateStep settings step rest).outcome = .ok next) :
    (step.declared? = none ∧ next = rest) ∨
      ∃ name body value, step.declared? = some (name, body) ∧
        settings.reduce (.sort none) body = .ok value ∧ next = rest.inline settings name value := by
  cases step with
  | define name value place =>
      rw [elaborateStep_define, bind_eq_ok_iff] at elaborated
      obtain ⟨reduced, returned, inlined⟩ := elaborated
      exact .inr ⟨name, value, reduced, rfl, returned, (Except.ok.inj inlined).symm⟩
  | prove claim place =>
      obtain ⟨_, proof, proved, inlined⟩ := elaborateTheorem_ok_iff.mp elaborated
      obtain ⟨_, _, _, reduced, _⟩ := checkProof_ok_iff.mp proved
      exact .inr ⟨claim.name, claim.proof, proof, rfl, reduced, inlined⟩
  | express value place =>
      refine .inl ⟨rfl, ?_⟩
      rw [elaborateStep_express] at elaborated
      split at elaborated
      · obtain ⟨_, _, same⟩ := bind_eq_ok_iff.mp elaborated
        exact (Except.ok.inj same).symm
      · exact (Except.ok.inj elaborated).symm

theorem outlines_elaborateStep {settings : Settings} {step : Step} {rest next : Program}
    (elaborated : (elaborateStep settings step rest).outcome = .ok next) :
    next.outlines = rest.outlines := by
  rcases elaborateStep_ok elaborated with ⟨_, same⟩ | ⟨name, _, value, _, _, inlined⟩
  · rw [same]
  · rw [inlined, Program.outlines_inline]

/-- A step at the cursor: its index, the step as it stands and the steps behind it. -/
structure Visit where
  index : Nat
  step : Step
  rest : Program

namespace Visit

def mark (visit : Visit) : StepMark :=
  ⟨visit.index, visit.step.label⟩

def elaborate (settings : Settings) (visit : Visit) : Elaborated :=
  elaborateStep settings visit.step visit.rest

def succeeds (settings : Settings) (visit : Visit) : Bool :=
  (visit.elaborate settings).outcome.isOk

theorem succeeds_iff {settings : Settings} {visit : Visit} :
    visit.succeeds settings = true ↔ ∃ next, (visit.elaborate settings).outcome = .ok next := by
  rw [succeeds]
  cases (visit.elaborate settings).outcome <;> simp [Except.isOk, Except.toBool]

theorem fails_iff {settings : Settings} {visit : Visit} :
    visit.succeeds settings = false ↔
      ∃ diagnosis, (visit.elaborate settings).outcome = .error diagnosis := by
  rw [succeeds]
  cases (visit.elaborate settings).outcome <;> simp [Except.isOk, Except.toBool]

def error? (settings : Settings) (visit : Visit) : Option Diagnosis :=
  match (visit.elaborate settings).outcome with
  | .ok _ => none
  | .error diagnosis => some (diagnosis.atStep visit.mark visit.step.place)

def warnings (settings : Settings) (visit : Visit) : List Diagnosis :=
  (visit.elaborate settings).warnings.map (Diagnosis.atStep · visit.mark visit.step.place)

end Visit

namespace Run

def visit? (settings : Settings) (run : Run) : Option Visit :=
  if run.isOver settings then none
  else
    match run.remaining with
    | [] => none
    | step :: rest => some ⟨run.position, step, rest⟩

def attempt (settings : Settings) (run : Run) (visit : Visit) : Run :=
  let run := { run with
    warnings := run.warnings ++ visit.warnings settings
    events := run.events ++ (visit.elaborate settings).events }
  match (visit.elaborate settings).outcome with
  | .error diagnosis => run.fail settings visit.mark visit.step.place visit.rest diagnosis
  | .ok next => run.finish visit.mark next

def visits (settings : Settings) : Nat → Run → List Visit
  | 0, _ => []
  | count + 1, run =>
      (run.visit? settings).toList ++ visits settings count (run.turn settings)

variable {settings : Settings} {run : Run} {visit : Visit}

theorem visit?_eq_some_iff :
    run.visit? settings = some visit ↔ run.isOver settings = false ∧
      run.position = visit.index ∧ run.remaining = visit.step :: visit.rest := by
  unfold visit?
  cases run.isOver settings with
  | true => simp
  | false =>
      cases run.remaining with
      | nil => simp
      | cons step rest =>
          simp only [Bool.false_eq_true, if_false, Option.some.injEq, true_and, List.cons.injEq]
          constructor
          · rintro rfl
            exact ⟨rfl, rfl, rfl⟩
          · rintro ⟨index, step, rest⟩
            rw [index, step, rest]

theorem visit?_eq_none_iff : run.visit? settings = none ↔ run.isOver settings = true := by
  unfold visit?
  cases isOver : run.isOver settings with
  | true => simp
  | false =>
      -- A run that is not over has a step left.
      cases remaining : run.remaining with
      | nil => simp [Run.isOver, remaining] at isOver
      | cons step rest => simp

theorem turn_of_none (ended : run.visit? settings = none) : run.turn settings = run := by
  rw [turn, visit?_eq_none_iff.mp ended]
  rfl

/-- A turn is a visit and, where a definition or theorem has succeeded, a skip. -/
theorem turn_of_visit (visited : run.visit? settings = some visit) :
    run.turn settings =
      if visit.succeeds settings && visit.step.isDeclaration && settings.skipAfterSubstitution then
        (run.attempt settings visit).skip
      else run.attempt settings visit := by
  obtain ⟨going, index, remaining⟩ := visit?_eq_some_iff.mp visited
  obtain ⟨_, _, _, _, _, _, _⟩ := run
  obtain ⟨_, step, rest⟩ := visit
  dsimp only at index remaining
  subst index remaining
  rw [turn, going]
  cases found : (elaborateStep settings step rest).outcome with
  | error diagnosis =>
      simp only [attempt, Visit.succeeds, Visit.warnings, Visit.elaborate, Visit.mark, found]
      rfl
  | ok next =>
      simp only [attempt, Visit.succeeds, Visit.warnings, Visit.elaborate, Visit.mark, found]
      rfl

/-! Where a visit leaves the cursor. -/

theorem attempt_of_ok (run : Run) {next : Program}
    (found : (visit.elaborate settings).outcome = .ok next) :
    (run.attempt settings visit).position = run.position + 1 ∧
      (run.attempt settings visit).remaining = next ∧
        (run.attempt settings visit).skipped = run.skipped := by
  rw [attempt, found]
  exact ⟨rfl, rfl, rfl⟩

theorem attempt_halting (run : Run) {diagnosis : Diagnosis}
    (found : (visit.elaborate settings).outcome = .error diagnosis)
    (halts : settings.haltOnError = true) :
    (run.attempt settings visit).position = run.position ∧
      (run.attempt settings visit).remaining = run.remaining ∧
        (run.attempt settings visit).skipped = run.skipped := by
  simp only [attempt, found, fail, halts, if_true, and_self]

theorem attempt_passing (run : Run) {diagnosis : Diagnosis}
    (found : (visit.elaborate settings).outcome = .error diagnosis)
    (passes : settings.haltOnError = false) :
    (run.attempt settings visit).position = run.position + 1 ∧
      (run.attempt settings visit).remaining = visit.rest ∧
        (run.attempt settings visit).skipped = run.skipped := by
  rw [attempt, found]
  simp only [fail, passes, Bool.false_eq_true, if_false, and_self]

theorem skip_of_cons {step : Step} {rest : Program} (standing : run.remaining = step :: rest) :
    run.skip.position = run.position + 1 ∧ run.skip.remaining = rest ∧
      run.skip.skipped = run.skipped ++ [step.label] := by
  rw [skip, standing]
  exact ⟨rfl, rfl, rfl⟩

theorem turns_succ (settings : Settings) (count : Nat) (run : Run) :
    turns settings (count + 1) run = (turns settings count run).turn settings := by
  induction count generalizing run with
  | zero => rfl
  | succ count ih => exact ih (run.turn settings)

theorem visits_succ (settings : Settings) (count : Nat) (run : Run) :
    visits settings (count + 1) run =
      visits settings count run ++ ((turns settings count run).visit? settings).toList := by
  induction count generalizing run with
  | zero => simp [visits, turns]
  | succ count ih =>
      rw [visits, ih, visits, turns, List.append_assoc]

/-- What holds at the start and is kept by every turn, whether it ends with the visit or
skips a step behind it, holds after any number of turns. -/
theorem turns_induction {kept : Run → List Visit → Prop} {start : Run} (first : kept start [])
    (stays : ∀ run visits visit, kept run visits → run.visit? settings = some visit →
      (visit.succeeds settings = true → visit.step.isDeclaration = true →
        settings.skipAfterSubstitution = false) →
          kept (run.attempt settings visit) (visits ++ [visit]))
    (skips : ∀ run visits visit, kept run visits → run.visit? settings = some visit →
      visit.succeeds settings = true → visit.step.isDeclaration = true →
        settings.skipAfterSubstitution = true →
          kept (run.attempt settings visit).skip (visits ++ [visit]))
    (count : Nat) : kept (turns settings count start) (visits settings count start) := by
  induction count with
  | zero => exact first
  | succ count ih =>
      rw [turns_succ, visits_succ]
      cases found : (turns settings count start).visit? settings with
      | none =>
          rw [turn_of_none found]
          simpa using ih
      | some visit =>
          rw [turn_of_visit found]
          split
          · rename_i skipping
            simp only [Bool.and_eq_true] at skipping
            exact skips _ _ visit ih found skipping.1.1 skipping.1.2 skipping.2
          · rename_i staying
            apply stays _ _ visit ih found
            simpa using staying

theorem position_skip (run : Run) : run.position ≤ run.skip.position := by
  rw [skip]
  split
  · exact Nat.le_refl _
  · exact Nat.le_succ _

theorem turn_progresses (visited : run.visit? settings = some visit) :
    (run.turn settings).isOver settings = true ∨ run.position < (run.turn settings).position := by
  rw [turn_of_visit visited]
  cases found : (visit.elaborate settings).outcome with
  | ok next =>
      -- The step has been passed, and a skip only adds to that.
      have moved := (attempt_of_ok run found).1
      have skipped := position_skip (run.attempt settings visit)
      right
      split <;> omega
  | error diagnosis =>
      have fails : visit.succeeds settings = false := Visit.fails_iff.mpr ⟨diagnosis, found⟩
      rw [fails]
      cases halts : settings.haltOnError with
      | true =>
          left
          simp [attempt, found, fail, halts, isOver, ok]
      | false =>
          have moved := (attempt_passing run found halts).1
          right
          simp only [Bool.false_and, Bool.false_eq_true, if_false]
          omega

theorem turns_progress (settings : Settings) (count : Nat) (run : Run) :
    (turns settings count run).isOver settings = true ∨
      run.position + count ≤ (turns settings count run).position := by
  induction count with
  | zero => exact .inr (Nat.le_refl _)
  | succ count ih =>
      rw [turns_succ]
      cases found : (turns settings count run).visit? settings with
      | none =>
          rw [turn_of_none found]
          exact .inl (visit?_eq_none_iff.mp found)
      | some visit =>
          rcases ih with ended | far
          · rw [← visit?_eq_none_iff, found] at ended
            cases ended
          · rcases turn_progresses found with ended | moved
            · exact .inl ended
            · exact .inr (by omega)

structure Recorded (settings : Settings) (run : Run) (visits : List Visit) : Prop where
  elaborated :
    run.elaborated = (visits.filter (Visit.succeeds settings)).map fun visit => visit.step.label
  errors : run.errors = visits.filterMap (Visit.error? settings)
  warnings : run.warnings = visits.flatMap (Visit.warnings settings)

theorem Recorded.attempt {visits : List Visit} (recorded : Recorded settings run visits)
    (visit : Visit) : Recorded settings (run.attempt settings visit) (visits ++ [visit]) := by
  have warned : (run.attempt settings visit).warnings =
      run.warnings ++ visit.warnings settings := by
    rw [Run.attempt]
    cases (visit.elaborate settings).outcome with
    | ok next => rfl
    | error diagnosis =>
        dsimp only [fail]
        split <;> rfl
  have warnings : (run.attempt settings visit).warnings =
      (visits ++ [visit]).flatMap (Visit.warnings settings) := by
    rw [warned, recorded.warnings, List.flatMap_append, List.flatMap_singleton]
  cases found : (visit.elaborate settings).outcome with
  | ok next =>
      have succeeds : visit.succeeds settings = true := Visit.succeeds_iff.mpr ⟨next, found⟩
      have silent : visit.error? settings = none := by rw [Visit.error?, found]
      refine ⟨?_, ?_, warnings⟩
      · rw [Run.attempt, found, List.filter_append, List.map_append, ← recorded.elaborated]
        simp [finish, succeeds, Visit.mark]
      · rw [Run.attempt, found, List.filterMap_append, ← recorded.errors]
        simp [finish, silent]
  | error diagnosis =>
      have fails : visit.succeeds settings = false := Visit.fails_iff.mpr ⟨diagnosis, found⟩
      have reported : visit.error? settings =
          some (diagnosis.atStep visit.mark visit.step.place) := by rw [Visit.error?, found]
      refine ⟨?_, ?_, warnings⟩
      · rw [Run.attempt, found, List.filter_append, List.map_append, ← recorded.elaborated]
        dsimp only [fail]
        split <;> simp [fails]
      · rw [Run.attempt, found, List.filterMap_append, ← recorded.errors]
        dsimp only [fail]
        split <;> simp [reported]

theorem Recorded.skip {visits : List Visit} (recorded : Recorded settings run visits) :
    Recorded settings run.skip visits := by
  rw [Run.skip]
  split
  · exact recorded
  · exact ⟨recorded.elaborated, recorded.errors, recorded.warnings⟩

theorem Recorded.mem_errors {visits : List Visit} (recorded : Recorded settings run visits)
    (member : visit ∈ visits) {diagnosis : Diagnosis}
    (found : (visit.elaborate settings).outcome = .error diagnosis) :
    diagnosis.atStep visit.mark visit.step.place ∈ run.errors := by
  rw [recorded.errors, List.mem_filterMap]
  exact ⟨visit, member, by rw [Visit.error?, found]⟩

theorem recorded_turns (settings : Settings) (program : Program) (count : Nat) :
    Recorded settings (turns settings count (.start program))
      (visits settings count (.start program)) := by
  apply turns_induction
  · exact ⟨rfl, rfl, rfl⟩
  · exact fun _ _ visit recorded _ _ => recorded.attempt visit
  · exact fun _ _ visit recorded _ _ _ _ => (recorded.attempt visit).skip

end Run

end TypeInType
