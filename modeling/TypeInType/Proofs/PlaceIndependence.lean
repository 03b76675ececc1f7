import TypeInType.Proofs.Places

/-!
Inputs that differ in places only. No function of the checker can tell them apart: it gives
values that differ in places only, or a diagnosis of the same cause. A run of a program
takes the same turns wherever its terms were read, and what it says is the same but for
where it points.
-/

namespace TypeInType

/-! Functions of terms. -/

section Terms

variable {term other : Term}

theorem Term.Same.substitute {replacement otherReplacement : Term} (same : term.Same other)
    (replacementSame : replacement.Same otherReplacement) (name : String) :
    (term.substitute name replacement).Same (other.substitute name otherReplacement) := by
  unfold Term.Same at *
  rw [Term.bare_substitute, Term.bare_substitute, same, replacementSame]

theorem Term.Same.substituteAvoiding {replacement otherReplacement : Term}
    (same : term.Same other) (replacementSame : replacement.Same otherReplacement)
    (name : String) (supply : NameSupply) :
    (term.substituteAvoiding name replacement supply).1.Same
        (other.substituteAvoiding name otherReplacement supply).1 ∧
      (term.substituteAvoiding name replacement supply).2 =
        (other.substituteAvoiding name otherReplacement supply).2 := by
  unfold Term.Same at *
  have substituted := Term.bare_substituteAvoiding term name replacement supply
  rw [same, replacementSame, Term.bare_substituteAvoiding, Prod.mk.injEq] at substituted
  exact ⟨substituted.1.symm, substituted.2.symm⟩

theorem Term.Same.alphaEquivalent {right otherRight : Term} (same : term.Same other)
    (rightSame : right.Same otherRight) (pairs : List (String × String)) :
    Term.alphaEquivalent pairs term right = Term.alphaEquivalent pairs other otherRight := by
  rw [Bool.eq_iff_iff, alphaEquivalent_iff, alphaEquivalent_iff, ← namelessUnder_bare _ term,
    ← namelessUnder_bare _ right, same, rightSame, namelessUnder_bare, namelessUnder_bare]

theorem Term.Same.reduce {context otherContext : Term} (contexts : context.Same otherContext)
    (same : term.Same other) (limit : Int) :
    withoutPlaces Term.bare (TypeInType.reduce context term limit) =
      withoutPlaces Term.bare (TypeInType.reduce otherContext other limit) := by
  have reduced := reduce_bare { maxReductionSteps := limit } context term
  rw [contexts, same, reduce_bare] at reduced
  exact reduced.symm

theorem Term.Same.synthesize {context otherContext : Term} (contexts : context.Same otherContext)
    (same : term.Same other) (settings : Settings) :
    withoutPlaces Term.bare (TypeInType.synthesize settings context term).outcome =
      withoutPlaces Term.bare (TypeInType.synthesize settings otherContext other).outcome := by
  rw [← (answers_bare settings).1, contexts, same, (answers_bare settings).1]

theorem Term.Same.checkContext {context otherContext : Term}
    (contexts : context.Same otherContext) (same : term.Same other) (settings : Settings) :
    withoutPlaces id (TypeInType.checkContext settings context term).outcome =
      withoutPlaces id (TypeInType.checkContext settings otherContext other).outcome := by
  rw [← (answers_bare settings).2, contexts, same, (answers_bare settings).2]

end Terms

/-! Runs. -/

theorem Diagnosis.bare_atStep (diagnosis : Diagnosis) (mark : StepMark)
    (place : Option Location) :
    (diagnosis.atStep mark place).bare = diagnosis.bare.atStep mark none := rfl

def Diagnosis.content (diagnosis : Diagnosis) : String × String × List (String × Document) :=
  (diagnosis.cause.kind, diagnosis.cause.message, diagnosis.details)

theorem Diagnosis.map_content_of_bare {diagnoses others : List Diagnosis}
    (same : diagnoses.map bare = others.map bare) :
    diagnoses.map content = others.map content := by
  -- The content of a diagnosis is that of the diagnosis without its place.
  have contents : ∀ list : List Diagnosis, list.map content = (list.map bare).map content := by
    intro list
    rw [List.map_map]
    rfl
  rw [contents, same, ← contents]

theorem isOk_withoutPlaces {α : Type} (strip : α → α) (outcome : Except Diagnosis α) :
    (withoutPlaces strip outcome).isOk = outcome.isOk := by
  cases outcome <;> rfl

structure Visit.Same (visit other : Visit) : Prop where
  index : other.index = visit.index
  step : other.step.bare = visit.step.bare
  rest : other.rest.map Step.bare = visit.rest.map Step.bare

namespace Visit.Same

variable {settings : Settings} {visit other : Visit}

theorem mark (same : visit.Same other) : other.mark = visit.mark := by
  rw [Visit.mark, Visit.mark, same.index, Step.label_of_bare same.step]

theorem outcome (same : visit.Same other) (settings : Settings) :
    withoutPlaces (List.map Step.bare) (other.elaborate settings).outcome =
      withoutPlaces (List.map Step.bare) (visit.elaborate settings).outcome := by
  rw [Visit.elaborate, Visit.elaborate, ← elaborateStep_bare, same.step, same.rest,
    elaborateStep_bare]

theorem warnings (same : visit.Same other) :
    (other.warnings settings).map Diagnosis.bare =
      (visit.warnings settings).map Diagnosis.bare := by
  have reported := warnings_elaborateStep_bare settings other.step other.rest
  rw [same.step, same.rest, warnings_elaborateStep_bare] at reported
  have marked : ∀ visit : Visit, (visit.warnings settings).map Diagnosis.bare =
      ((visit.elaborate settings).warnings.map Diagnosis.bare).map
        (Diagnosis.atStep · visit.mark none) := by
    intro visit
    rw [Visit.warnings, List.map_map, List.map_map]
    rfl
  rw [marked, marked, same.mark, Visit.elaborate, Visit.elaborate, reported]

theorem succeeds (same : visit.Same other) :
    other.succeeds settings = visit.succeeds settings := by
  rw [Visit.succeeds, Visit.succeeds, ← isOk_withoutPlaces (List.map Step.bare), same.outcome,
    isOk_withoutPlaces]

theorem isDeclaration (same : visit.Same other) :
    other.step.isDeclaration = visit.step.isDeclaration := by
  have bare : ∀ step : Step, step.bare.isDeclaration = step.isDeclaration := by
    intro step
    cases step <;> rfl
  rw [← bare, same.step, bare]

end Visit.Same

structure Run.Same (run other : Run) : Prop where
  position : other.position = run.position
  remaining : other.remaining.map Step.bare = run.remaining.map Step.bare
  elaborated : other.elaborated = run.elaborated
  skipped : other.skipped = run.skipped
  errors : other.errors.map Diagnosis.bare = run.errors.map Diagnosis.bare
  warnings : other.warnings.map Diagnosis.bare = run.warnings.map Diagnosis.bare

namespace Run.Same

variable {settings : Settings} {run other : Run} {visit otherVisit : Visit}

theorem start {program otherProgram : Program}
    (same : otherProgram.map Step.bare = program.map Step.bare) :
    Run.Same (.start program) (.start otherProgram) :=
  ⟨rfl, same, rfl, rfl, rfl, rfl⟩

theorem ok (same : run.Same other) : other.ok = run.ok := by
  have errors := congrArg List.isEmpty same.errors
  simpa [Run.ok] using errors

theorem isOver (same : run.Same other) : other.isOver settings = run.isOver settings := by
  have remaining := congrArg List.isEmpty same.remaining
  rw [List.isEmpty_map, List.isEmpty_map] at remaining
  rw [Run.isOver, Run.isOver, remaining, same.ok]

theorem visit? (same : run.Same other) (visited : run.visit? settings = some visit) :
    ∃ otherVisit, other.visit? settings = some otherVisit ∧ visit.Same otherVisit := by
  obtain ⟨going, index, standing⟩ := Run.visit?_eq_some_iff.mp visited
  have remaining := same.remaining
  rw [standing] at remaining
  cases otherStanding : other.remaining with
  | nil =>
      rw [otherStanding] at remaining
      cases remaining
  | cons step rest =>
      rw [otherStanding] at remaining
      obtain ⟨stepSame, restSame⟩ := List.cons.inj remaining
      refine ⟨⟨other.position, step, rest⟩, ?_, ?_, stepSame, restSame⟩
      · exact Run.visit?_eq_some_iff.mpr ⟨same.isOver.trans going, rfl, otherStanding⟩
      · exact same.position.trans index

theorem attempt (same : run.Same other) (visits : visit.Same otherVisit) :
    (run.attempt settings visit).Same (other.attempt settings otherVisit) := by
  have outcome := visits.outcome settings
  have warnings : (other.warnings ++ otherVisit.warnings settings).map Diagnosis.bare =
      (run.warnings ++ visit.warnings settings).map Diagnosis.bare := by
    rw [List.map_append, List.map_append, same.warnings, visits.warnings]
  cases found : (visit.elaborate settings).outcome with
  | ok next =>
      cases foundOther : (otherVisit.elaborate settings).outcome with
      | error diagnosis =>
          rw [found, foundOther] at outcome
          cases outcome
      | ok otherNext =>
          rw [found, foundOther] at outcome
          rw [Run.attempt, Run.attempt, found, foundOther]
          exact {
            position := congrArg (· + 1) same.position
            remaining := Except.ok.inj outcome
            elaborated := by simp only [finish, same.elaborated, visits.mark]
            skipped := same.skipped
            errors := same.errors
            warnings := warnings }
  | error diagnosis =>
      cases foundOther : (otherVisit.elaborate settings).outcome with
      | ok next =>
          rw [found, foundOther] at outcome
          cases outcome
      | error otherDiagnosis =>
          rw [found, foundOther] at outcome
          have errors : (other.errors ++
                [otherDiagnosis.atStep otherVisit.mark otherVisit.step.place]).map Diagnosis.bare =
              (run.errors ++ [diagnosis.atStep visit.mark visit.step.place]).map
                Diagnosis.bare := by
            have bare : otherDiagnosis.bare = diagnosis.bare := Except.error.inj outcome
            simp only [List.map_append, List.map_cons, List.map_nil, same.errors,
              Diagnosis.bare_atStep, bare, visits.mark]
          rw [Run.attempt, Run.attempt, found, foundOther]
          dsimp only [fail]
          split
          · exact ⟨same.position, same.remaining, same.elaborated, same.skipped, errors, warnings⟩
          · exact ⟨congrArg (· + 1) same.position, visits.rest, same.elaborated, same.skipped,
              errors, warnings⟩

theorem skip (same : run.Same other) : run.skip.Same other.skip := by
  have remaining := same.remaining
  cases standing : run.remaining with
  | nil =>
      rw [standing, List.map_nil, List.map_eq_nil_iff] at remaining
      rw [Run.skip, Run.skip, standing, remaining]
      exact same
  | cons step rest =>
      rw [standing] at remaining
      cases otherStanding : other.remaining with
      | nil =>
          rw [otherStanding] at remaining
          cases remaining
      | cons otherStep otherRest =>
          rw [otherStanding] at remaining
          obtain ⟨stepSame, restSame⟩ := List.cons.inj remaining
          rw [Run.skip, Run.skip, standing, otherStanding]
          exact {
            position := congrArg (· + 1) same.position
            remaining := restSame
            elaborated := same.elaborated
            skipped := by simp only [same.skipped, Step.label_of_bare stepSame]
            errors := same.errors
            warnings := same.warnings }

theorem turn (same : run.Same other) (settings : Settings) :
    (run.turn settings).Same (other.turn settings) := by
  cases visited : run.visit? settings with
  | none =>
      have ended := same.isOver.trans (Run.visit?_eq_none_iff.mp visited)
      rw [Run.turn_of_none visited, Run.turn_of_none (Run.visit?_eq_none_iff.mpr ended)]
      exact same
  | some visit =>
      obtain ⟨otherVisit, otherVisited, visits⟩ := same.visit? visited
      rw [Run.turn_of_visit visited, Run.turn_of_visit otherVisited, visits.succeeds,
        visits.isDeclaration]
      split
      · exact (same.attempt visits).skip
      · exact same.attempt visits

theorem turns (settings : Settings) (count : Nat) (same : run.Same other) :
    (Run.turns settings count run).Same (Run.turns settings count other) := by
  induction count generalizing run other with
  | zero => exact same
  | succ count ih => exact ih (same.turn settings)

theorem text (same : run.Same other) :
    Program.text other.remaining = Program.text run.remaining := by
  rw [← Program.text_bare, same.remaining, Program.text_bare]

end Run.Same

/-- Programs that differ in places only run alike. -/
theorem Program.run_same (settings : Settings) {program other : Program}
    (same : other.map Step.bare = program.map Step.bare) :
    (program.run settings).Same (other.run settings) := by
  have length : other.length = program.length := by
    simpa using congrArg List.length same
  rw [Program.run, Program.run, length]
  exact .turns settings program.length (.start same)

/-- Places decide nothing. On inputs that differ in places only, replacing, reducing, comparing
and both judgements give results that differ in places only, or are refused for one cause;
and runs of such programs agree in all they say but in where it points. -/
theorem places_decide_nothing (settings : Settings) :
    (∀ {program other : Program}, other.map Step.bare = program.map Step.bare →
      let run := program.run settings
      let again := other.run settings
      again.ok = run.ok ∧ again.elaborated = run.elaborated ∧ again.skipped = run.skipped ∧
        again.position = run.position ∧
        again.remaining.map Step.bare = run.remaining.map Step.bare ∧
        Program.text again.remaining = Program.text run.remaining ∧
        again.errors.map Diagnosis.content = run.errors.map Diagnosis.content ∧
        again.warnings.map Diagnosis.content = run.warnings.map Diagnosis.content) ∧
    (∀ {term other replacement otherReplacement : Term}, term.Same other →
      replacement.Same otherReplacement → ∀ name,
        (term.substitute name replacement).Same (other.substitute name otherReplacement) ∧
        ∀ supply,
          (term.substituteAvoiding name replacement supply).1.Same
            (other.substituteAvoiding name otherReplacement supply).1 ∧
          (term.substituteAvoiding name replacement supply).2 =
            (other.substituteAvoiding name otherReplacement supply).2) ∧
    (∀ {left otherLeft right otherRight : Term}, left.Same otherLeft → right.Same otherRight →
      ∀ pairs, Term.alphaEquivalent pairs left right =
        Term.alphaEquivalent pairs otherLeft otherRight) ∧
    ∀ {context otherContext term other : Term}, context.Same otherContext → term.Same other →
      (∀ limit, withoutPlaces Term.bare (reduce context term limit) =
        withoutPlaces Term.bare (reduce otherContext other limit)) ∧
      withoutPlaces Term.bare (synthesize settings context term).outcome =
        withoutPlaces Term.bare (synthesize settings otherContext other).outcome ∧
      withoutPlaces id (checkContext settings context term).outcome =
        withoutPlaces id (checkContext settings otherContext other).outcome := by
  refine ⟨?_, ?_, ?_, ?_⟩
  · intro program other same run again
    have runs : run.Same again := Program.run_same settings same
    exact ⟨runs.ok, runs.elaborated, runs.skipped, runs.position, runs.remaining, runs.text,
      Diagnosis.map_content_of_bare runs.errors, Diagnosis.map_content_of_bare runs.warnings⟩
  · intro term other replacement otherReplacement same replacementSame name
    exact ⟨same.substitute replacementSame name, same.substituteAvoiding replacementSame name⟩
  · intro left otherLeft right otherRight same rightSame
    exact same.alphaEquivalent rightSame
  · intro context otherContext term other contexts same
    exact ⟨contexts.reduce same, contexts.synthesize same settings,
      contexts.checkContext same settings⟩

/-- A refused proof is refused for the same reason wherever it stands, and the place where
the diagnosis points is all that differs. -/
theorem refusal_is_told_alike :
    let here : Location := ⟨1, 5, "here"⟩
    let there : Location := ⟨7, 2, "there"⟩
    let program : Program := [.prove ⟨"t", .sort none, .var "c" (some here)⟩ none]
    let other : Program := [.prove ⟨"t", .sort (some here), .var "c" none⟩ (some there)]
    other.map Step.bare = program.map Step.bare ∧
      (program.run {}).errors.map Diagnosis.place = [some here] ∧
      (other.run {}).errors.map Diagnosis.place = [some there] ∧
      (other.run {}).errors.map Diagnosis.content =
        (program.run {}).errors.map Diagnosis.content := by
  intro here there program other
  have same : other.map Step.bare = program.map Step.bare := rfl
  have firstPlace : (program.run {}).errors.map Diagnosis.place = [some here] := by cbv
  have secondPlace : (other.run {}).errors.map Diagnosis.place = [some there] := by cbv
  obtain ⟨_, _, _, _, _, _, errors, _⟩ := (places_decide_nothing {}).1 same
  exact ⟨same, firstPlace, secondPlace, errors⟩

end TypeInType
