import TypeInType.Proofs.Remainder

/-!
Free names through reduction and through a run. A contraction brings no name in, and
a substitution that renames binders leaves no free occurrence of the replaced name. So
in a program whose names are all given before they are used, the step at the cursor is
closed whenever the steps before it have been elaborated, and what they gave is gone
from all that remains.
-/

namespace TypeInType

namespace Nameless

theorem mem_freeNames_of_fill {indices : Nat → Nameless} {names : String → Nameless}
    {term : Nameless} {name : String} (member : name ∈ (term.fill indices names).freeNames) :
    (∃ depth, name ∈ (indices depth).freeNames) ∨
      ∃ hole ∈ term.freeNames, name ∈ (names hole).freeNames := by
  induction term generalizing indices names with
  | sort => cases member
  | bound depth => exact .inl ⟨depth, member⟩
  | free hole => exact .inr ⟨hole, List.mem_singleton_self hole, member⟩
  | app function argument functionIH argumentIH =>
      rw [fill, freeNames, List.mem_append] at member
      rcases member with inFunction | inArgument
      · rcases functionIH inFunction with filled | ⟨hole, inside, found⟩
        · exact .inl filled
        · exact .inr ⟨hole, List.mem_append_left _ inside, found⟩
      · rcases argumentIH inArgument with filled | ⟨hole, inside, found⟩
        · exact .inl filled
        · exact .inr ⟨hole, List.mem_append_right _ inside, found⟩
  | bind kind domain body domainIH bodyIH =>
      rw [fill, freeNames, List.mem_append] at member
      rcases member with inDomain | inBody
      · rcases domainIH inDomain with filled | ⟨hole, inside, found⟩
        · exact .inl filled
        · exact .inr ⟨hole, List.mem_append_left _ inside, found⟩
      · rcases bodyIH inBody with ⟨depth, found⟩ | ⟨hole, inside, found⟩
        · -- The binder's own index is no name, and the others are shifted past it.
          cases depth with
          | zero => cases found
          | succ depth =>
              rw [lift, freeNames_shift] at found
              exact .inl ⟨depth, found⟩
        · rw [freeNames_shift] at found
          exact .inr ⟨hole, List.mem_append_right _ inside, found⟩

theorem mem_freeNames_of_instantiate {body argument : Nameless} {name : String}
    (member : name ∈ (body.instantiate argument).freeNames) :
    name ∈ body.freeNames ∨ name ∈ argument.freeNames := by
  rcases mem_freeNames_of_fill member with ⟨depth, found⟩ | ⟨hole, inside, found⟩
  · cases depth with
    | zero => exact .inr found
    | succ depth => cases found
  · rw [freeNames, List.mem_singleton] at found
    exact .inl (found ▸ inside)

theorem Contracts.freeNames_subset {term next : Nameless} (step : Contracts term next) :
    next.freeNames ⊆ term.freeNames := by
  induction step with
  | redex domain body argument =>
      intro name member
      simp only [freeNames, List.mem_append]
      exact (mem_freeNames_of_instantiate member).imp_left .inr
  | function argument _ ih =>
      exact List.append_subset.mpr
        ⟨List.subset_append_of_subset_left _ ih, List.subset_append_right ..⟩
  | argument function _ ih =>
      exact List.append_subset.mpr
        ⟨List.subset_append_left .., List.subset_append_of_subset_right _ ih⟩
  | domain kind body _ ih =>
      exact List.append_subset.mpr
        ⟨List.subset_append_of_subset_left _ ih, List.subset_append_right ..⟩
  | body kind domain _ ih =>
      exact List.append_subset.mpr
        ⟨List.subset_append_left .., List.subset_append_of_subset_right _ ih⟩

end Nameless

theorem freeNames_reduce {context term result : Term} {limit : Int}
    (returned : reduce context term limit = .ok result) : result.freeNames ⊆ term.freeNames := by
  refine (reduce_keeps (fun reached => reached.freeNames ⊆ term.freeNames) ?_
    (List.Subset.refl _) returned).1
  intro reached supply next after kept step name member
  rw [← Term.mem_freeNames_nameless] at member
  have before := (contracts_of_contractLeftmost step).freeNames_subset member
  rw [Term.mem_freeNames_nameless] at before
  exact kept before

/-! Names of steps. -/

def Outline.given? (outline : Outline) : Option String :=
  match outline.kind with
  | .expression => none
  | _ => some outline.label

namespace Step

theorem given?_outline (step : Step) : step.outline.given? = step.declared?.map Prod.fst := by
  cases step <;> rfl

def freeNames (step : Step) : List String :=
  step.terms.flatMap Term.freeNames

theorem mem_freeNames_iff (step : Step) (name : String) :
    name ∈ step.freeNames ↔ ∃ term ∈ step.reading.2, name ∈ term.freeNames := by
  simp only [freeNames, reading, List.mem_flatMap, List.mem_map, exists_exists_and_eq_and,
    Term.mem_freeNames_nameless]

theorem freeNames_declared {step : Step} {name : String} {body : Term}
    (declares : step.declared? = some (name, body)) : body.freeNames ⊆ step.freeNames := by
  intro free member
  have inside : body ∈ step.terms := by
    cases step <;> cases declares <;> simp [terms]
  exact List.mem_flatMap.mpr ⟨body, inside, member⟩

end Step

namespace Program

def given (program : Program) : List String :=
  program.outlines.filterMap Outline.given?

/-- Every free name of a step has been given by a step before it. -/
def WellScoped (program : Program) : Prop :=
  ∀ (index : Nat) (step : Step), program[index]? = some step →
    ∀ name ∈ step.freeNames, name ∈ given (program.take index)

theorem mem_given_cons (step : Step) (rest : Program) (name : String) :
    name ∈ given (step :: rest) ↔ step.outline.given? = some name ∨ name ∈ rest.given := by
  rw [given, outlines, List.map_cons, List.filterMap_cons]
  cases step.outline.given? with
  | none => simp [given, outlines]
  | some own => simp [given, outlines, eq_comm]

theorem given_take_of_outlines {program other : Program}
    (same : program.outlines = other.outlines) (count : Nat) :
    given (program.take count) = given (other.take count) := by
  rw [given, given, outlines, outlines, List.map_take, List.map_take]
  exact congrArg (fun outlines => (outlines.take count).filterMap Outline.given?) same

theorem WellScoped.closed {step : Step} {rest : Program} (wellScoped : WellScoped (step :: rest)) :
    step.freeNames = [] :=
  List.eq_nil_iff_forall_not_mem.mpr fun name member =>
    List.not_mem_nil (wellScoped 0 step rfl name member)

/-- Replacing a name by a closed term removes it from every step and adds none. -/
theorem freeNames_inline {settings : Settings} (avoiding : settings.captureAvoiding = true)
    {value : Term} (closed : value.freeNames = []) {program : Program} {name : String}
    {index : Nat} {step : Step}
    (stands : (Program.inline settings program name value)[index]? = some step) :
    ∃ original, program[index]? = some original ∧
      ∀ free ∈ step.freeNames, free ∈ original.freeNames ∧ free ≠ name := by
  have reads := congrArg (fun readings => readings[index]?)
    (Program.reading_inline avoiding program name value)
  simp only [List.getElem?_map, stands, Option.map_some] at reads
  cases found : program[index]? with
  | none =>
      rw [found] at reads
      cases reads
  | some original =>
      rw [found, Option.map_some, Option.map_some, Option.some.injEq] at reads
      refine ⟨original, rfl, fun free member => ?_⟩
      obtain ⟨term, inside, isFree⟩ := (step.mem_freeNames_iff free).mp member
      rw [reads] at inside
      obtain ⟨before, inOriginal, rfl⟩ := List.mem_map.mp inside
      rw [Nameless.mem_freeNames_replaceFree] at isFree
      rcases isFree with ⟨kept, differ⟩ | ⟨_, inValue⟩
      · exact ⟨(original.mem_freeNames_iff free).mpr ⟨before, inOriginal, kept⟩, differ⟩
      · rw [Term.mem_freeNames_nameless, closed] at inValue
        cases inValue

theorem WellScoped.inline {settings : Settings} (avoiding : settings.captureAvoiding = true)
    {step : Step} {rest : Program} (wellScoped : WellScoped (step :: rest)) {name : String}
    (gives : step.outline.given? = some name) {value : Term} (closed : value.freeNames = []) :
    WellScoped (Program.inline settings rest name value) := by
  intro index later stands free member
  obtain ⟨original, inRest, kept⟩ := freeNames_inline avoiding closed stands
  obtain ⟨inOriginal, differ⟩ := kept free member
  have before := wellScoped (index + 1) original inRest free inOriginal
  rw [List.take_succ_cons, mem_given_cons, gives, Option.some.injEq] at before
  rw [given_take_of_outlines (outlines_inline settings rest name value)]
  exact before.resolve_left (Ne.symm differ)

theorem WellScoped.tail {step : Step} {rest : Program} (wellScoped : WellScoped (step :: rest))
    (gives : step.outline.given? = none) : WellScoped rest := by
  intro index later stands free member
  have before := wellScoped (index + 1) later stands free member
  rw [List.take_succ_cons, mem_given_cons, gives] at before
  exact before.resolve_left (by simp)

end Program

/-- Where all steps before the cursor have been elaborated: each has its name in the report,
the steps from the cursor on are scoped by themselves, and no name that was given before
the cursor is free in them. -/
structure Settled (program : Program) (run : Run) : Prop where
  outlines : run.remaining.outlines = program.outlines.drop run.position
  elaborated : run.elaborated = Program.labels (program.take run.position)
  wellScoped : run.remaining.WellScoped
  gone : ∀ name ∈ Program.given (program.take run.position), ∀ step ∈ run.remaining,
    name ∉ step.freeNames

namespace Settled

variable {settings : Settings} {program : Program} {run : Run} {visit : Visit}

theorem start (program : Program) (wellScoped : program.WellScoped) :
    Settled program (.start program) where
  outlines := rfl
  elaborated := rfl
  wellScoped := wellScoped
  gone := by
    intro name member
    cases member

theorem outlines_take_next (settled : Settled program run) {step : Step} {rest : Program}
    (standing : run.remaining = step :: rest) :
    Program.outlines (program.take (run.position + 1)) =
      Program.outlines (program.take run.position) ++ [step.outline] := by
  have here : program.outlines[run.position]? = some step.outline := by
    rw [← List.head?_drop, ← settled.outlines, standing]
    rfl
  rw [Program.outlines, Program.outlines, List.map_take, List.map_take, List.take_add_one]
  exact congrArg _ (congrArg Option.toList here)

theorem given_take_next (settled : Settled program run) {step : Step} {rest : Program}
    (standing : run.remaining = step :: rest) {name : String}
    (member : name ∈ Program.given (program.take (run.position + 1))) :
    name ∈ Program.given (program.take run.position) ∨ step.outline.given? = some name := by
  rw [Program.given, settled.outlines_take_next standing, List.filterMap_append] at member
  refine (List.mem_append.mp member).imp_right fun own => ?_
  rw [List.mem_filterMap] at own
  obtain ⟨outline, inside, gives⟩ := own
  rw [List.mem_singleton.mp inside] at gives
  exact gives

theorem succeed (avoiding : settings.captureAvoiding = true) (settled : Settled program run)
    (visited : run.visit? settings = some visit) {next : Program}
    (found : (visit.elaborate settings).outcome = .ok next) :
    Settled program (run.attempt settings visit) := by
  obtain ⟨_, _, standing⟩ := Run.visit?_eq_some_iff.mp visited
  obtain ⟨position, remaining, _⟩ := Run.attempt_of_ok run found
  have wellScoped := settled.wellScoped
  have outlines : next.outlines = program.outlines.drop (run.position + 1) := by
    have behind := settled.outlines
    rw [standing] at behind
    rw [outlines_elaborateStep found, ← List.drop_drop, ← behind]
    rfl
  have elaborated : (run.attempt settings visit).elaborated =
      Program.labels (program.take (run.position + 1)) := by
    rw [Program.labels_eq_outlines, settled.outlines_take_next standing, List.map_append,
      ← Program.labels_eq_outlines, ← settled.elaborated, Run.attempt, found]
    rfl
  rw [standing] at wellScoped
  have scopedAndGone : next.WellScoped ∧
      ∀ name ∈ Program.given (program.take (run.position + 1)), ∀ step ∈ next,
        name ∉ step.freeNames := by
    rcases elaborateStep_ok found with ⟨expression, rfl⟩ | ⟨name, body, value, declares, reduced, rfl⟩
    · have gives : visit.step.outline.given? = none := by
        rw [Step.given?_outline, expression]
        rfl
      refine ⟨wellScoped.tail gives, fun other member step inside => ?_⟩
      have before := settled.given_take_next standing member
      rw [gives] at before
      exact settled.gone other (before.resolve_right (by simp)) step
        (standing ▸ List.mem_cons_of_mem _ inside)
    · have gives : visit.step.outline.given? = some name := by
        rw [Step.given?_outline, declares]
        rfl
      have closed : value.freeNames = [] := by
        have bodyFree := Step.freeNames_declared declares
        rw [wellScoped.closed] at bodyFree
        exact List.eq_nil_of_subset_nil (List.Subset.trans (freeNames_reduce reduced) bodyFree)
      refine ⟨wellScoped.inline avoiding gives closed, fun other member step inside isFree => ?_⟩
      obtain ⟨index, stands⟩ := List.mem_iff_getElem?.mp inside
      obtain ⟨original, inRest, kept⟩ := Program.freeNames_inline avoiding closed stands
      obtain ⟨inOriginal, differ⟩ := kept other isFree
      rcases settled.given_take_next standing member with before | own
      · exact settled.gone other before original
          (standing ▸ List.mem_cons_of_mem _ (List.mem_of_getElem? inRest)) inOriginal
      · rw [gives, Option.some.injEq] at own
        exact differ own.symm
  refine { outlines := ?_, elaborated := ?_, wellScoped := ?_, gone := ?_ }
  · rw [remaining, position, outlines]
  · rw [elaborated, position]
  · rw [remaining]
    exact scopedAndGone.1
  · rw [remaining, position]
    exact scopedAndGone.2

theorem halt (settled : Settled program run) {diagnosis : Diagnosis}
    (found : (visit.elaborate settings).outcome = .error diagnosis)
    (halts : settings.haltOnError = true) : Settled program (run.attempt settings visit) := by
  obtain ⟨position, remaining, _⟩ := Run.attempt_halting run found halts
  have elaborated : (run.attempt settings visit).elaborated = run.elaborated := by
    simp only [Run.attempt, found, Run.fail, halts, if_true]
  refine { outlines := ?_, elaborated := ?_, wellScoped := ?_, gone := ?_ }
  · rw [remaining, position, settled.outlines]
  · rw [elaborated, position, settled.elaborated]
  · rw [remaining]
    exact settled.wellScoped
  · rw [remaining, position]
    exact settled.gone

theorem turns (avoiding : settings.captureAvoiding = true)
    (passes : settings.skipAfterSubstitution = false) (wellScoped : program.WellScoped)
    (count : Nat)
    (succeed : ∀ visit ∈ Run.visits settings count (.start program),
      visit.index < (Run.turns settings count (.start program)).position →
        visit.succeeds settings = true) :
    Settled program (Run.turns settings count (.start program)) := by
  refine @Run.turns_induction settings (fun run visits =>
    (∀ visit ∈ visits, visit.index < run.position → visit.succeeds settings = true) →
      Settled program run) _ ?_ ?_ ?_ count succeed
  · exact fun _ => .start program wellScoped
  · intro run visits visit ih visited _ succeeded
    obtain ⟨_, index, _⟩ := Run.visit?_eq_some_iff.mp visited
    have settledAt (moved : run.position ≤ (run.attempt settings visit).position) :
        Settled program run := by
      apply ih
      intro earlier member before
      exact succeeded earlier (List.mem_append_left _ member) (Nat.lt_of_lt_of_le before moved)
    cases found : (visit.elaborate settings).outcome with
    | ok next =>
        have position := (Run.attempt_of_ok run found).1
        exact (settledAt (by omega)).succeed avoiding visited found
    | error diagnosis =>
        cases halts : settings.haltOnError with
        | true =>
            have position := (Run.attempt_halting run found halts).1
            exact (settledAt (by omega)).halt found halts
        | false =>
            -- The run would go on behind a step that has failed.
            have position := (Run.attempt_passing run found halts).1
            have fails : visit.succeeds settings = false := Visit.fails_iff.mpr ⟨diagnosis, found⟩
            have succeeds := succeeded visit (List.mem_append_right _ List.mem_cons_self) (by omega)
            rw [fails] at succeeds
            cases succeeds
  · intro run visits visit _ _ _ _ skips
    rw [passes] at skips
    cases skips

end Settled

/-- An error tells in which step it was met, so a run that has none before the cursor has
succeeded at all that it visited there. -/
theorem succeeds_of_errors {settings : Settings} {run : Run} {visits : List Visit}
    (recorded : Run.Recorded settings run visits)
    (fine : ∀ diagnosis ∈ run.errors, ∀ mark, diagnosis.step = some mark →
      run.position ≤ mark.index) :
    ∀ visit ∈ visits, visit.index < run.position → visit.succeeds settings = true := by
  intro visit member before
  cases found : (visit.elaborate settings).outcome with
  | ok next => exact Visit.succeeds_iff.mpr ⟨next, found⟩
  | error diagnosis =>
      have after := fine _ (recorded.mem_errors member found) visit.mark rfl
      exact absurd before (Nat.not_lt.mpr after)

/-- With substitution that renames binders and no step skipped, a program whose names are all
given before they are used stays so. Wherever the cursor stands with no error before it,
the step at the cursor is closed, a free name of a later step is given by a step from the
cursor on that stands before it, and what the steps before the cursor gave is free nowhere
in the steps that remain. -/
theorem remaining_steps_are_scoped {settings : Settings}
    (avoiding : settings.captureAvoiding = true)
    (passes : settings.skipAfterSubstitution = false) {program : Program}
    (wellScoped : program.WellScoped) (count : Nat) :
    let run := Run.turns settings count (.start program)
    (∀ diagnosis ∈ run.errors, ∀ mark, diagnosis.step = some mark → run.position ≤ mark.index) →
      run.remaining.outlines = program.outlines.drop run.position ∧
      run.elaborated = Program.labels (program.take run.position) ∧
      (∀ step, run.remaining.head? = some step → ∀ term ∈ step.terms, term.freeNames = []) ∧
      (∀ (index : Nat) (step : Step), run.remaining[index]? = some step →
        ∀ term ∈ step.terms, ∀ name ∈ term.freeNames,
          name ∈ Program.given (run.remaining.take index)) ∧
      ∀ name ∈ Program.given (program.take run.position), ∀ step ∈ run.remaining,
        ∀ term ∈ step.terms, name ∉ term.freeNames := by
  intro run fine
  have settled : Settled program run := .turns avoiding passes wellScoped count
    (succeeds_of_errors (Run.recorded_turns settings program count) fine)
  have inStep : ∀ {step : Step} {term : Term}, term ∈ step.terms →
      term.freeNames ⊆ step.freeNames :=
    fun inside _ member => List.mem_flatMap.mpr ⟨_, inside, member⟩
  refine ⟨settled.outlines, settled.elaborated, ?_, ?_, ?_⟩
  · intro step stands term inside
    obtain ⟨rest, standing⟩ := List.head?_eq_some_iff.mp stands
    have wellScoped := settled.wellScoped
    rw [standing] at wellScoped
    exact List.eq_nil_of_subset_nil (wellScoped.closed ▸ inStep inside)
  · exact fun index step stands term inside name member =>
      settled.wellScoped index step stands name (inStep inside member)
  · exact fun name before step inside term ofStep member =>
      settled.gone name before step inside (inStep ofStep member)

/-- The binder of the second step has the name of the first, and the first is used in its
annotation all the same. -/
theorem remaining_step_of_function_is_closed :
    let settings : Settings := { captureAvoiding := true, skipAfterSubstitution := false }
    let program : Program := [.define "A" (.sort none) none,
      .define "f" (.lam "A" (.var "A" none) (.var "A" none) none) none,
      .express (.app (.var "f" none) (.var "A" none) none) none]
    let run := Run.turns settings 2 (.start program)
    run.elaborated = ["A", "f"] ∧ ∀ name ∈ ["A", "f"], ∀ step ∈ run.remaining,
      ∀ term ∈ step.terms, name ∉ term.freeNames := by
  intro settings program run
  have wellScoped : program.WellScoped := by
    intro index step stands name member
    match index, stands with
    | 0, stands | 1, stands | 2, stands =>
        cases stands
        revert name
        decide
  have errors : (Run.turns settings 2 (.start program)).errors = [] := by cbv
  have position : (Run.turns settings 2 (.start program)).position = 2 := by cbv
  obtain ⟨_, elaborated, _, _, gone⟩ := remaining_steps_are_scoped rfl rfl wellScoped 2
    (by
      intro diagnosis member
      rw [errors] at member
      cases member)
  rw [position] at elaborated gone
  exact ⟨elaborated, gone⟩

end TypeInType
