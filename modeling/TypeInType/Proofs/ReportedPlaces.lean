import TypeInType.Proofs.Accounting

/-!
Where the diagnoses of a run point. What the checker blames has the place of a node, or none,
and then the place of the step stands in for it. All these places come from the text, and so
every error and every warning of a program that has been read points at one of its tokens.
-/

namespace TypeInType

theorem exists_place_atStep {placed : Location → Prop} {diagnosis : Diagnosis} {step : Step}
    (mark : StepMark) (isPlaced : ∀ here ∈ diagnosis.place, placed here)
    (stepPlaced : ∀ here ∈ step.place, placed here) (stands : ∃ here, step.place = some here) :
    ∃ here, placed here ∧ (diagnosis.atStep mark step.place).place = some here := by
  obtain ⟨own, stands⟩ := stands
  cases pointed : diagnosis.place with
  | none =>
      refine ⟨own, stepPlaced own stands, ?_⟩
      rw [Diagnosis.atStep, pointed, stands, Option.none_or]
  | some here =>
      refine ⟨here, isPlaced here pointed, ?_⟩
      rw [Diagnosis.atStep, pointed, Option.some_or]

theorem Ledger.outline_visited {settings : Settings} {program : Program} {run : Run}
    {visits : List Visit} {skipped : List Nat}
    (ledger : Ledger settings program run visits skipped) :
    ∀ visit ∈ visits, visit.step.outline ∈ program.outlines := by
  intro visit member
  have begins := ledger.visited visit member
  exact List.mem_of_mem_drop (begins ▸ List.mem_cons_self)

section Visits

variable {named : String → Prop} {placed : Location → Prop}
  (primes : ∀ name, named name → named (name ++ "'")) {settings : Settings} {visit : Visit}

include primes

theorem exists_place_of_error (labels : visit.step.LabelsAre named placed)
    (stands : ∃ here, visit.step.place = some here) {error : Diagnosis}
    (reported : visit.error? settings = some error) :
    ∃ here, placed here ∧ error.place = some here := by
  have explained := @explained_elaborateStep named placed primes settings _ visit.rest labels
  rw [Visit.error?, Visit.elaborate] at reported
  cases found : (elaborateStep settings visit.step visit.rest).outcome with
  | ok next =>
      rw [found] at reported
      cases reported
  | error diagnosis =>
      rw [found] at reported explained
      obtain rfl := Option.some.inj reported
      exact exists_place_atStep visit.mark explained.place labels.place stands

theorem exists_place_of_warning (labels : visit.step.LabelsAre named placed)
    (stands : ∃ here, visit.step.place = some here) :
    ∀ warning ∈ visit.warnings settings, ∃ here, placed here ∧ warning.place = some here := by
  intro warning member
  obtain ⟨diagnosis, reported, rfl⟩ := List.mem_map.mp member
  have explained := explained_warnings primes visit.rest labels diagnosis reported
  exact exists_place_atStep visit.mark explained.place labels.place stands

/-- Places are the business of the program that is given, whatever becomes of its steps. -/
theorem exists_place_of_report (settings : Settings) {program : Program}
    (labels : program.LabelsAre named placed) (linked : program.Linked)
    (stand : ∀ step ∈ program, ∃ here, step.place = some here) :
    ∀ diagnosis ∈ (program.run settings).errors ++ (program.run settings).warnings,
      ∃ here, placed here ∧ diagnosis.place = some here := by
  obtain ⟨skipped, ledger, _⟩ := Ledger.turns settings linked program.length
  obtain ⟨_, visited⟩ := labelsAre_turns primes settings labels program.length
  have stands : ∀ visit ∈ Run.visits settings program.length (.start program),
      ∃ here, visit.step.place = some here := by
    intro visit member
    obtain ⟨original, given, same⟩ := List.mem_map.mp (ledger.outline_visited visit member)
    obtain ⟨here, place⟩ := stand original given
    exact ⟨here, (congrArg Outline.place same).symm.trans place⟩
  intro diagnosis member
  rcases List.mem_append.mp member with isError | isWarning
  · rw [Program.run, ledger.errors, List.mem_filterMap] at isError
    obtain ⟨visit, member, reported⟩ := isError
    have labels := visited visit member visit.step List.mem_cons_self
    exact exists_place_of_error primes labels (stands visit member) reported
  · rw [Program.run, ledger.warnings, List.mem_flatMap] at isWarning
    obtain ⟨visit, member, reported⟩ := isWarning
    have labels := visited visit member visit.step List.mem_cons_self
    exact exists_place_of_warning primes labels (stands visit member) diagnosis reported

end Visits

/-- Every error and every warning of a program that has been read has a place, which is that of
a token of its text. -/
theorem reports_point_into_source (settings : Settings) {source file : String}
    {program : Program} (parsed : parseProgram source file = .ok program) :
    ∃ tokens, tokenize source file = .ok tokens ∧
      ∀ diagnosis ∈ (checkSource settings source file).errors ++
          (checkSource settings source file).warnings,
        ∃ token ∈ tokens.items, diagnosis.place = some token.place := by
  obtain ⟨tokens, scanned, read⟩ := bind_eq_ok_iff.mp parsed
  refine ⟨tokens, scanned, ?_⟩
  obtain ⟨linked, stand⟩ := linked_of_readProgram read
  have labels : program.LabelsAre (fun _ => True) fun here =>
      ∃ token ∈ tokens.items, token.place = here := by
    refine labelsAre_of_readProgram trivial ?_ read
    exact fun token member => ⟨fun _ => trivial, token, member, rfl⟩
  intro diagnosis member
  rw [checkSource, parsed] at member
  obtain ⟨_, ⟨token, inText, rfl⟩, place⟩ :=
    exists_place_of_report (fun _ _ => trivial) settings labels linked stand diagnosis member
  exact ⟨token, inText, place⟩

/-- The variable that is reported in the claim was put there from the first step, into the body
of a binder that was renamed for it. -/
theorem inlined_variable_is_reported_where_it_stands :
    let settings : Settings := { captureAvoiding := true }
    let source := "let a = z; let b = a; " ++
      "theorem t : forall (x : Type) (y : Type), Type := fun (z : Type) => a;"
    let run := checkSource settings source "t.pt"
    run.errors.map Diagnosis.place = [some ⟨1, 9, "t.pt"⟩] ∧
      run.warnings.map Diagnosis.place = [some ⟨1, 53, "t.pt"⟩] ∧
      ∃ tokens, tokenize source "t.pt" = .ok tokens ∧
        ∀ diagnosis ∈ run.errors ++ run.warnings,
          ∃ token ∈ tokens.items, diagnosis.place = some token.place := by
  intro settings source run
  have computed : (parseProgram source "t.pt").isOk = true ∧
      run.errors.map Diagnosis.place = [some ⟨1, 9, "t.pt"⟩] ∧
        run.warnings.map Diagnosis.place = [some ⟨1, 53, "t.pt"⟩] := by
    dsimp only [run, source, settings]
    cbv
    exact ⟨rfl, rfl⟩
  obtain ⟨accepted, errors, warnings⟩ := computed
  cases parsed : parseProgram source "t.pt" with
  | error diagnosis =>
      rw [parsed] at accepted
      cases accepted
  | ok program => exact ⟨errors, warnings, reports_point_into_source settings parsed⟩

end TypeInType
