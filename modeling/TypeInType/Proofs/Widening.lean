import TypeInType.Proofs.Refusals

/-!
Settings that answer more. A larger budget and the fallthrough of the context rules each
do away with failures of one kind. Where none of that kind is met, nothing can tell the
wider settings from the narrower ones: every judgement and every run gives the very same,
down to the bound names and what is reported on the way.
-/

namespace TypeInType

def Definite {α : Type} (kind : String) (outcome : Except Diagnosis α) : Prop :=
  ∀ diagnosis, outcome = .error diagnosis → diagnosis.cause.kind ≠ kind

/-- The second computation is the first, events and all, unless the first fails in the
given kind. -/
def AgreesUnless {α : Type} (kind : String) (first second : Checked α) : Prop :=
  Definite kind first.outcome → second = first

structure Settings.Widens (kind : String) (settings wider : Settings) : Prop where
  captureAvoiding : wider.captureAvoiding = settings.captureAvoiding
  skipAfterSubstitution : wider.skipAfterSubstitution = settings.skipAfterSubstitution
  checkExpressionSteps : wider.checkExpressionSteps = settings.checkExpressionSteps
  haltOnError : wider.haltOnError = settings.haltOnError
  contextRules : wider.contextFallthrough = settings.contextFallthrough ∨
    settings.contextFallthrough = false ∧ kind = "ambiguous"
  reduce : ∀ context term, Definite kind (settings.reduce context term) →
    wider.reduce context term = settings.reduce context term

/-- The part of the settings that the elaboration of a step reads differs so. Whether a step
is skipped, and whether a run halts, is not asked there. -/
structure Settings.ElaboratesMore (kind : String) (settings wider : Settings) : Prop where
  captureAvoiding : wider.captureAvoiding = settings.captureAvoiding
  checkExpressionSteps : wider.checkExpressionSteps = settings.checkExpressionSteps
  contextRules : wider.contextFallthrough = settings.contextFallthrough ∨
    settings.contextFallthrough = false ∧ kind = "ambiguous"
  reduce : ∀ context term, Definite kind (settings.reduce context term) →
    wider.reduce context term = settings.reduce context term

/-- What a larger budget leaves over is all that is added to the end of a run. -/
theorem Stage.exhaust_more {contract : Contraction} (extra : Nat) {budget : Nat} {term : Term}
    {supply : NameSupply} {stage : Stage}
    (reached : exhaust contract budget term supply = some stage) :
    exhaust contract (budget + extra) term supply =
      some { stage with budget := stage.budget + extra } := by
  induction budget generalizing term supply with
  | zero =>
      cases step : contract term supply with
      | none =>
          rw [exhaust_none step] at reached
          cases reached
          exact exhaust_none step (0 + extra)
      | some next =>
          rw [exhaust_zero step] at reached
          cases reached
  | succ left ih =>
      cases step : contract term supply with
      | none =>
          rw [exhaust_none step] at reached
          cases reached
          exact exhaust_none step (left + 1 + extra)
      | some next =>
          rw [exhaust_succ step] at reached
          rw [Nat.add_right_comm, exhaust_succ step]
          exact ih reached

theorem reduce_more {context term result : Term} {limit larger : Int} (more : limit ≤ larger)
    (returned : reduce context term limit = .ok result) :
    reduce context term larger = .ok result := by
  obtain ⟨extra, enough⟩ : ∃ extra, larger.toNat = limit.toNat + extra :=
    ⟨larger.toNat - limit.toNat, by omega⟩
  obtain ⟨stage, run, rfl⟩ := reduce_eq_ok_iff.mp returned
  apply reduce_eq_ok_iff.mpr
  rw [enough, Stage.exhaust_more extra run]
  exact ⟨_, rfl, rfl⟩

namespace Settings.Widens

variable {kind : String} {settings wider : Settings}

theorem fallthrough (settings : Settings) :
    Widens "ambiguous" { settings with contextFallthrough := false }
      { settings with contextFallthrough := true } where
  captureAvoiding := rfl
  skipAfterSubstitution := rfl
  checkExpressionSteps := rfl
  haltOnError := rfl
  contextRules := .inr ⟨rfl, rfl⟩
  reduce := fun _ _ _ => rfl

theorem budget (settings : Settings) {limit larger : Int} (more : limit ≤ larger) :
    Widens "non_normalizing" { settings with maxReductionSteps := limit }
      { settings with maxReductionSteps := larger } where
  captureAvoiding := rfl
  skipAfterSubstitution := rfl
  checkExpressionSteps := rfl
  haltOnError := rfl
  contextRules := .inl rfl
  reduce := by
    intro context term definite
    rcases reduce_ok_or_error context term limit with ⟨result, returned⟩ | failed
    · exact (reduce_more more returned).trans returned.symm
    · exact absurd rfl (definite _ failed)

theorem elaboratesMore (widens : settings.Widens kind wider) :
    settings.ElaboratesMore kind wider :=
  ⟨widens.captureAvoiding, widens.checkExpressionSteps, widens.contextRules, widens.reduce⟩

instance : Coe (settings.Widens kind wider) (settings.ElaboratesMore kind wider) :=
  ⟨elaboratesMore⟩

end Settings.Widens

namespace Settings.ElaboratesMore

variable {kind : String} {settings wider : Settings}

theorem instantiate_eq (more : settings.ElaboratesMore kind wider) :
    wider.instantiate = settings.instantiate := by
  funext body name argument
  rw [Settings.instantiate, Settings.instantiate, more.captureAvoiding]

theorem inline_eq (more : settings.ElaboratesMore kind wider) (program : Program)
    (name : String) (value : Term) :
    program.inline wider name value = program.inline settings name value := by
  rw [Program.inline, Program.inline, more.captureAvoiding]

theorem fallthrough_kept (more : settings.ElaboratesMore kind wider)
    (always : settings.contextFallthrough = true) : wider.contextFallthrough = true := by
  rcases more.contextRules with same | ⟨strict, _⟩
  · rw [same, always]
  · rw [always] at strict
    cases strict

end Settings.ElaboratesMore

namespace AgreesUnless

variable {α β : Type} {kind : String} {settings wider : Settings}

theorem refl (checked : Checked α) : AgreesUnless kind checked checked :=
  fun _ => rfl

theorem bind {first second : Checked α} {next secondNext : α → Checked β}
    (agrees : AgreesUnless kind first second)
    (nextAgrees : ∀ value, AgreesUnless kind (next value) (secondNext value)) :
    AgreesUnless kind (first >>= next) (second >>= secondNext) := by
  intro definite
  rw [Checked.outcome_bind] at definite
  show second.andThen secondNext = first.andThen next
  cases found : first.outcome with
  | ok value =>
      have same : second = first := agrees (by simp [Definite, found])
      rw [found] at definite
      rw [same, Checked.andThen, Checked.andThen, found]
      dsimp only
      rw [nextAgrees value definite]
  | error diagnosis =>
      rw [found] at definite
      have same : second = first := by
        apply agrees
        rw [found]
        intro other failed
        exact definite other (congrArg Except.error (Except.error.inj failed))
      rw [same, Checked.andThen, Checked.andThen, found]

theorem reduce (more : settings.ElaboratesMore kind wider) (context term : Term) :
    AgreesUnless kind (.silent (settings.reduce context term))
      (.silent (wider.reduce context term)) := by
  intro definite
  rw [more.reduce context term definite]

theorem answers (more : settings.ElaboratesMore kind wider) :
    (∀ context expression, AgreesUnless kind (synthesize settings context expression)
        (synthesize wider context expression)) ∧
      ∀ context telescope, AgreesUnless kind (checkContext settings context telescope)
        (checkContext wider context telescope) := by
  apply judgements_induction settings
    (fun context expression => AgreesUnless kind (synthesize settings context expression)
      (synthesize wider context expression))
    (fun context telescope => AgreesUnless kind (checkContext settings context telescope)
      (checkContext wider context telescope))
  case sort =>
    intro context place
    rw [synthesize, synthesize]
    exact .refl _
  case var =>
    intro context name place
    rw [synthesize, synthesize]
    exact .refl _
  case app =>
    intro context function argument place functionIH argumentIH
    rw [synthesize, synthesize]
    refine .bind (.refl _) fun _ => ?_
    refine .bind functionIH fun functionType => ?_
    refine .bind (.reduce more _ _) fun functionType => ?_
    refine .bind argumentIH fun argumentType => ?_
    refine .bind (.reduce more _ _) fun argumentType => ?_
    rw [more.instantiate_eq]
    exact .refl _
  case lam =>
    intro context name domain body place bodyIH
    rw [synthesize, synthesize]
    refine .bind (.refl _) fun _ => ?_
    refine .bind bodyIH fun bodyType => ?_
    exact .bind (.reduce more _ _) fun bodyType => .refl _
  case pi =>
    intro context name domain body place bodyIH
    rw [synthesize, synthesize]
    refine .bind (.refl _) fun _ => ?_
    exact .bind bodyIH fun valid => .refl _
  case empty =>
    intro place other
    rw [checkContext, checkContext]
    exact .refl _
  case lastTelescope =>
    intro bound type rest place other shaped typeIH
    rw [checkContext, checkContext, if_pos shaped, if_pos shaped]
    exact typeIH
  case lastType =>
    intro bound type rest place other notShaped typeIH
    have isNoTelescope := Bool.eq_false_iff.mp notShaped
    rw [checkContext, checkContext, if_neg isNoTelescope, if_neg isNoTelescope]
    refine .bind typeIH fun sort => ?_
    exact .bind (.reduce more _ _) fun sort => .refl _
  case fallsThrough =>
    intro bound type rest place name domain body other always bodyIH
    rw [checkContext, checkContext, if_pos always, if_pos (more.fallthrough_kept always)]
    exact bodyIH
  case malformed =>
    intro bound type rest place telescope always notSort notPi
    rw [checkContext, checkContext, if_pos always, if_pos (more.fallthrough_kept always)]
    · exact .refl _
    all_goals assumption
  case unruled =>
    intro bound type rest place telescope strict notSort
    have isNotSort := Term.isSort_of_ne notSort
    rcases more.contextRules with same | ⟨_, rfl⟩
    · rw [checkContext_unruled settings strict _ _ _ isNotSort,
        checkContext_unruled wider (same.trans strict) _ _ _ isNotSort]
      exact .refl _
    · -- Here the narrower settings fail, and in just the kind that is left out.
      intro definite
      rw [checkContext_ambiguous settings strict _ _ _ isNotSort] at definite
      exact absurd rfl (definite _ rfl)
  case moves =>
    intro context name domain body place notPi bodyIH
    rw [checkContext, checkContext]
    · exact bodyIH
    all_goals assumption
  case shapeless =>
    intro context telescope notPi telescopeNotPi notSorts
    rw [checkContext_nowhere settings notPi telescopeNotPi notSorts,
      checkContext_nowhere wider notPi telescopeNotPi notSorts]
    exact .refl _

theorem normalType (more : settings.ElaboratesMore kind wider) (context expression : Term) :
    AgreesUnless kind (normalType settings context expression)
      (normalType wider context expression) :=
  .bind ((answers more).1 context expression) fun type => .reduce more context type

theorem typeOf (more : settings.ElaboratesMore kind wider) (expression : Term) :
    AgreesUnless kind (typeOf settings expression) (typeOf wider expression) := by
  rw [TypeInType.typeOf, TypeInType.typeOf]
  split
  · exact .bind ((answers more).2 _ _) fun valid => .refl _
  · exact .normalType more _ _

theorem checkProof (more : settings.ElaboratesMore kind wider) (claim : Theorem) :
    AgreesUnless kind (checkProof settings claim) (checkProof wider claim) := by
  refine .bind (.reduce more _ _) fun statement => ?_
  refine .bind (.reduce more _ _) fun proof => ?_
  exact .bind (.typeOf more _) fun proofType => .refl _

end AgreesUnless

/-! Steps and runs. -/

structure Elaborated.FreeOf (kind : String) (done : Elaborated) : Prop where
  outcome : Definite kind done.outcome
  warnings : ∀ warning ∈ done.warnings, warning.cause.kind ≠ kind

theorem Diagnosis.isAmbiguous_iff (diagnosis : Diagnosis) :
    diagnosis.isAmbiguous = true ↔ diagnosis.cause.kind = "ambiguous" := by
  rw [isAmbiguous]
  cases diagnosis.cause <;> simp [Cause.kind]

theorem kind_of_warning {settings : Settings} {step : Step} {rest : Program}
    {warning : Diagnosis} (member : warning ∈ (elaborateStep settings step rest).warnings) :
    warning.cause.kind = "ambiguous" := by
  cases step with
  | define name value place =>
      rw [warnings_define] at member
      cases member
  | prove claim place =>
      rw [warnings_prove, checkStatement_outcome] at member
      cases typed : (typeOf settings claim.statement).outcome with
      | ok type =>
          rw [typed] at member
          cases member
      | error diagnosis =>
          simp only [typed] at member
          by_cases ambiguous : diagnosis.isAmbiguous = true
          · rw [if_pos ambiguous, List.mem_singleton] at member
            rw [member, ← Diagnosis.isAmbiguous_iff, ambiguous]
          · rw [if_neg ambiguous] at member
            cases member
  | express value place =>
      rw [warnings_express] at member
      cases member

section Runs

variable {kind : String} {settings wider : Settings}

theorem checkStatement_agrees (more : settings.ElaboratesMore kind wider) (claim : Theorem)
    (definite : Definite kind (checkStatement settings claim).outcome)
    (quiet : ∀ warnings, (checkStatement settings claim).outcome = .ok warnings →
      ∀ warning ∈ warnings, warning.cause.kind ≠ kind) :
    checkStatement wider claim = checkStatement settings claim := by
  rw [checkStatement_outcome] at definite quiet
  have typed : Definite kind (typeOf settings claim.statement).outcome := by
    intro diagnosis failed
    simp only [failed] at definite quiet
    by_cases ambiguous : diagnosis.isAmbiguous = true
    · rw [if_pos ambiguous] at quiet
      exact quiet [diagnosis] rfl diagnosis (List.mem_singleton_self diagnosis)
    · rw [if_neg ambiguous] at definite
      exact definite diagnosis rfl
  rw [checkStatement, checkStatement, AgreesUnless.typeOf more claim.statement typed]

theorem elaborateStep_agrees (more : settings.ElaboratesMore kind wider) (step : Step)
    (rest : Program) (free : (elaborateStep settings step rest).FreeOf kind) :
    elaborateStep wider step rest = elaborateStep settings step rest := by
  obtain ⟨definite, quiet⟩ := free
  cases step with
  | define name value place =>
      rw [elaborateStep_define] at definite
      have reduced : Definite kind (settings.reduce (.sort none) value) := by
        intro diagnosis failed
        rw [failed] at definite
        exact definite diagnosis rfl
      simp only [elaborateStep, elaborateDefinition, more.reduce _ _ reduced, more.inline_eq]
  | prove claim place =>
      rw [elaborateStep_prove] at definite
      rw [warnings_prove] at quiet
      have stated : checkStatement wider claim = checkStatement settings claim := by
        apply checkStatement_agrees more claim
        · intro diagnosis failed
          rw [failed] at definite
          exact definite diagnosis rfl
        · intro warnings passed
          rw [passed] at quiet
          exact quiet
      simp only [elaborateStep, elaborateTheorem, stated, more.inline_eq]
      cases passed : (checkStatement settings claim).outcome with
      | error diagnosis => simp only
      | ok warnings =>
          have proved : checkProof wider claim = checkProof settings claim := by
            apply AgreesUnless.checkProof more claim
            intro diagnosis failed
            rw [passed, failed] at definite
            exact definite diagnosis rfl
          rw [proved]
  | express value place =>
      rw [elaborateStep_express] at definite
      simp only [elaborateStep, elaborateExpression, more.checkExpressionSteps]
      by_cases checks : settings.checkExpressionSteps = true
      · have typed : Definite kind (typeOf settings value).outcome := by
          intro diagnosis failed
          rw [if_pos checks, failed] at definite
          exact definite diagnosis rfl
        rw [AgreesUnless.typeOf more value typed]
      · rw [if_neg checks, if_neg checks]

theorem isOver_eq (widens : settings.Widens kind wider) (run : Run) :
    run.isOver wider = run.isOver settings := by
  rw [Run.isOver, Run.isOver, widens.haltOnError]

theorem visit?_eq (widens : settings.Widens kind wider) (run : Run) :
    run.visit? wider = run.visit? settings := by
  rw [Run.visit?, Run.visit?, isOver_eq widens]

/-- A turn depends on the settings through its visit and through how it goes on. -/
theorem turn_agrees (widens : settings.Widens kind wider) (run : Run)
    (free : ∀ visit, run.visit? settings = some visit → (visit.elaborate settings).FreeOf kind) :
    run.turn wider = run.turn settings := by
  cases visited : run.visit? settings with
  | none =>
      have wideVisited := (visit?_eq widens run).trans visited
      rw [Run.turn_of_none visited, Run.turn_of_none wideVisited]
  | some visit =>
      have wideVisited := (visit?_eq widens run).trans visited
      have elaborated : visit.elaborate wider = visit.elaborate settings :=
        elaborateStep_agrees widens visit.step visit.rest (free visit visited)
      have attempted : run.attempt wider visit = run.attempt settings visit := by
        simp only [Run.attempt, Visit.warnings, Run.fail, elaborated, widens.haltOnError]
      rw [Run.turn_of_visit visited, Run.turn_of_visit wideVisited, attempted, Visit.succeeds,
        Visit.succeeds, elaborated, widens.skipAfterSubstitution]

theorem turns_agree (widens : settings.Widens kind wider) (count : Nat) (run : Run)
    (free : ∀ visit ∈ run.visits settings count, (visit.elaborate settings).FreeOf kind) :
    Run.turns wider count run = Run.turns settings count run := by
  induction count generalizing run with
  | zero => rfl
  | succ count ih =>
      rw [Run.visits] at free
      have first : run.turn wider = run.turn settings := by
        apply turn_agrees widens run
        intro visit visited
        exact free visit (List.mem_append_left _ (by rw [visited]; exact List.mem_singleton_self _))
      rw [Run.turns, Run.turns, first]
      exact ih _ fun visit member => free visit (List.mem_append_right _ member)

theorem free_of_recorded {run : Run} {visits : List Visit}
    (recorded : Run.Recorded settings run visits)
    (errors : ∀ diagnosis ∈ run.errors, diagnosis.cause.kind ≠ kind)
    (warnings : ∀ diagnosis ∈ run.warnings, diagnosis.cause.kind ≠ kind) :
    ∀ visit ∈ visits, (visit.elaborate settings).FreeOf kind := by
  intro visit member
  refine ⟨fun diagnosis failed => ?_, fun warning inside => ?_⟩
  · exact errors (diagnosis.atStep visit.mark visit.step.place) (recorded.mem_errors member failed)
  · apply warnings (warning.atStep visit.mark visit.step.place)
    rw [recorded.warnings, List.mem_flatMap]
    exact ⟨visit, member, List.mem_map_of_mem inside⟩

theorem run_agrees (widens : settings.Widens kind wider) (program : Program)
    (errors : ∀ diagnosis ∈ (program.run settings).errors, diagnosis.cause.kind ≠ kind)
    (warnings : ∀ diagnosis ∈ (program.run settings).warnings, diagnosis.cause.kind ≠ kind) :
    program.run wider = program.run settings :=
  turns_agree widens program.length (.start program)
    (free_of_recorded (Run.recorded_turns settings program program.length) errors warnings)

theorem kind_of_warnings (settings : Settings) (program : Program) :
    ∀ warning ∈ (program.run settings).warnings, warning.cause.kind = "ambiguous" := by
  intro warning member
  rw [Program.run, (Run.recorded_turns settings program program.length).warnings,
    List.mem_flatMap] at member
  obtain ⟨visit, _, inside⟩ := member
  obtain ⟨original, reported, rfl⟩ := List.mem_map.mp inside
  have ofStep : original.cause.kind = "ambiguous" := kind_of_warning reported
  exact ofStep

end Runs

/-- The fallthrough of the context rules only adds answers where there were none. Whatever
the strict rules answer or refuse, except as ambiguous, is answered or refused just so with
the fallthrough, and a program that gives no ambiguous error or warning runs just so. -/
theorem fallthrough_only_adds_answers (settings : Settings) :
    let strict := { settings with contextFallthrough := false }
    let lenient := { settings with contextFallthrough := true }
    (∀ context telescope, AgreesUnless "ambiguous" (checkContext strict context telescope)
      (checkContext lenient context telescope)) ∧
    (∀ context expression, AgreesUnless "ambiguous" (synthesize strict context expression)
      (synthesize lenient context expression)) ∧
    (∀ context expression, AgreesUnless "ambiguous" (normalType strict context expression)
      (normalType lenient context expression)) ∧
    (∀ expression, AgreesUnless "ambiguous" (typeOf strict expression)
      (typeOf lenient expression)) ∧
    ∀ program : Program,
      (∀ diagnosis ∈ (program.run strict).errors, diagnosis.cause.kind ≠ "ambiguous") →
      (∀ diagnosis ∈ (program.run strict).warnings, diagnosis.cause.kind ≠ "ambiguous") →
        program.run lenient = program.run strict := by
  intro strict lenient
  have widens : strict.Widens "ambiguous" lenient := .fallthrough settings
  exact ⟨(AgreesUnless.answers widens).2, (AgreesUnless.answers widens).1, .normalType widens,
    .typeOf widens, run_agrees widens⟩

/-- A proof of the wrong type is refused just so by both. -/
theorem wrong_proof_is_refused_alike :
    let strict : Settings := { contextFallthrough := false }
    let lenient : Settings := { contextFallthrough := true }
    let program : Program := [.prove ⟨"t", .pi "A" (.sort none) (.sort none) none, .sort none⟩ none]
    (program.run strict).errors.map (·.cause.kind) = ["proof_statement_mismatch"] ∧
      (program.run strict).warnings = [] ∧ program.run lenient = program.run strict := by
  intro strict lenient program
  have kinds : (program.run strict).errors.map (·.cause.kind) = ["proof_statement_mismatch"] := by
    cbv
  have warnings : (program.run strict).warnings = [] := by cbv
  refine ⟨kinds, warnings, ?_⟩
  obtain ⟨_, _, _, _, runs⟩ := fallthrough_only_adds_answers {}
  apply runs program
  · intro diagnosis member ambiguous
    have listed : diagnosis.cause.kind ∈ ["proof_statement_mismatch"] := by
      rw [← kinds]
      exact List.mem_map_of_mem member
    rw [ambiguous] at listed
    revert listed
    decide
  · rw [warnings]
    intro diagnosis member
    cases member

/-- A larger budget never changes an answer that was reached, down to the bound names. What
does not fail for want of budget comes out just so with more of it, and so does the run of
a program that reports no such failure. -/
theorem budget_only_adds_answers (settings : Settings) {limit larger : Int}
    (more : limit ≤ larger) :
    let narrow := { settings with maxReductionSteps := limit }
    let wide := { settings with maxReductionSteps := larger }
    (∀ context expression, AgreesUnless "non_normalizing" (synthesize narrow context expression)
      (synthesize wide context expression)) ∧
    (∀ context expression, AgreesUnless "non_normalizing" (normalType narrow context expression)
      (normalType wide context expression)) ∧
    (∀ context telescope, AgreesUnless "non_normalizing" (checkContext narrow context telescope)
      (checkContext wide context telescope)) ∧
    (∀ expression, AgreesUnless "non_normalizing" (typeOf narrow expression)
      (typeOf wide expression)) ∧
    ∀ program : Program,
      (∀ diagnosis ∈ (program.run narrow).errors, diagnosis.cause.kind ≠ "non_normalizing") →
        program.run wide = program.run narrow := by
  intro narrow wide
  have widens : narrow.Widens "non_normalizing" wide := .budget settings more
  refine ⟨(AgreesUnless.answers widens).1, .normalType widens, (AgreesUnless.answers widens).2,
    .typeOf widens, fun program errors => ?_⟩
  apply run_agrees widens program errors
  intro warning member
  rw [kind_of_warnings narrow program warning member]
  decide

/-- The definition takes the one contraction that the smaller budget allows. -/
theorem budget_of_one_is_enough :
    let redex : Term := .app (.lam "y" (.sort none) (.var "y" none) none) (.sort none) none
    let narrow : Settings := { maxReductionSteps := 1 }
    let wide : Settings := { maxReductionSteps := 10000 }
    let program : Program := [.define "x" redex none]
    (1 : Int) ≤ 10000 ∧ (program.run narrow).elaborated = ["x"] ∧
      (program.run narrow).errors = [] ∧ program.run wide = program.run narrow := by
  intro redex narrow wide program
  have more : (1 : Int) ≤ 10000 := by decide
  obtain ⟨result, reduced, _⟩ := (reduce_ok_iff (.sort none) redex 1 [] .sort).mpr
    ⟨1, by decide, by decide, rfl⟩
  have outcome : (elaborateStep narrow (.define "x" redex none) []).outcome = .ok [] := by
    rw [elaborateStep_define, Settings.reduce, reduced]
    rfl
  have finished : (program.run narrow).elaborated = ["x"] ∧ (program.run narrow).errors = [] := by
    simp [program, Program.run, Run.turns, Run.turn, Run.isOver, Run.start, Run.ok, Run.finish,
      Run.skip, Step.isDeclaration, Step.label, outcome]
  refine ⟨more, finished.1, finished.2, ?_⟩
  obtain ⟨_, _, _, _, runs⟩ := budget_only_adds_answers {} more
  apply runs program
  intro diagnosis member
  rw [finished.2] at member
  cases member

end TypeInType
