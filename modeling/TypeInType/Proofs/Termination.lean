import Mathlib.Logic.Function.Iterate
import TypeInType.Proofs.ContextRules

/-!
Running the judgements call by call. The functions that make up the two judgements and the
reducer are written once more as what one call does by itself: it answers, or makes another
call and goes on with the answer. No measure is part of that, and a turn of a loop is a call
like any other. What runs along a term and no further, such as a lookup, a substitution or a
comparison, is part of a step. A machine carries the calls out one at a time with a stack of
those that wait. It halts, whatever it is asked, and with the answer that the judgement gives:
a call only makes calls that are smaller, since the reductions on the way keep to their budget.
-/

namespace TypeInType

/-- A call of one of the functions. The reducer knows the term it started from, for the
diagnosis when the budget is spent. -/
inductive Call where
  | synthesize (context expression : Term)
  | normalType (context expression : Term)
  | checkContext (context telescope : Term)
  | typeOf (expression : Term)
  | reduce (context term : Term)
  | normalize (origin : Term) (stage : Stage)
  | headNormal (origin : Term) (stage : Stage)

@[reducible] def Call.Answer : Call → Type
  | .synthesize _ _ | .normalType _ _ | .typeOf _ | .reduce _ _ => Term
  | .checkContext _ _ => Bool
  | .normalize _ _ | .headNormal _ _ => Stage

inductive Work (α : Type) where
  | give (outcome : Except Diagnosis α)
  | ask (call : Call) (next : call.Answer → Work α)

namespace Work

def again (call : Call) : Work call.Answer :=
  .ask call fun answer => .give (.ok answer)

variable (settings : Settings)

def ofSynthesize (context expression : Term) : Work Term :=
  match expression with
  | .sort place => .give (.ok (.sort place))
  | .var name place =>
      match context.lookup? name with
      | some type => .give (.ok type)
      | none => .give (.error (.of (.unboundVariable name) place))
  | .app function argument place =>
      .ask (.normalType context function) fun functionType =>
      .ask (.normalType context argument) fun argumentType =>
      .give (applicationType settings functionType argumentType function argument place)
  | .lam name domain body place =>
      .ask (.normalType (context.withBinding name domain) body) fun bodyType =>
      .give (.ok (.pi name domain bodyType place))
  | .pi name domain body place =>
      .ask (.checkContext (context.withBinding name domain) body) fun valid =>
      .give (if valid then .ok (.sort place)
        else .error (.of (.malformedPi (Term.pi name domain body place).text) place))

def ofNormalType (context expression : Term) : Work Term :=
  .ask (.synthesize context expression) fun type =>
  .again (.reduce context type)

def ofCheckContext (context telescope : Term) : Work Bool :=
  match context, telescope with
  | .sort _, .sort _ => .give (.ok true)
  | .pi _ type rest _, .sort _ =>
      if type.isTelescope then .again (.checkContext rest type)
      else
        .ask (.normalType rest type) fun sort =>
        .give (.ok sort.isSort)
  | .pi bound type rest place, telescope =>
      if settings.contextFallthrough then
        match telescope with
        | .pi name domain body _ =>
            .again (.checkContext ((Term.pi bound type rest place).withBinding name domain) body)
        | _ => .give (.ok false)
      else
        .give (.error (.of (.ambiguous (Term.pi bound type rest place).text telescope.text)
          telescope.place))
  | context, .pi name domain body _ =>
      .again (.checkContext (context.withBinding name domain) body)
  | _, _ => .give (.ok false)

def ofTypeOf (expression : Term) : Work Term :=
  if expression.isTelescope then
    .ask (.checkContext (.sort none) expression) fun valid =>
    .give (if valid then .ok (.sort expression.place)
      else .error (.of (.invalidContext expression.text) expression.place))
  else .again (.normalType (.sort none) expression)

def ofReduce (context term : Term) : Work Term :=
  .ask (.normalize term ⟨term, settings.maxReductionSteps.toNat, .ofTerms [term, context]⟩)
    fun normal => .give (.ok normal.term)

def ofBoth (origin left right : Term) (head : Stage) (make : Term → Term → Term) : Work Stage :=
  .ask (.normalize origin ⟨left, head.budget, head.supply⟩) fun first =>
  .ask (.normalize origin ⟨right, first.budget, first.supply⟩) fun second =>
  .give (.ok ⟨make first.term second.term, second.budget, second.supply⟩)

def ofParts (origin : Term) (head : Stage) : Work Stage :=
  match head.term with
  | .app function argument place =>
      ofBoth origin function argument head (.app · · place)
  | .bind kind name domain body place =>
      ofBoth origin domain body head (.bind kind name · · place)
  | _ => .give (.ok head)

def ofNormalize (origin : Term) (stage : Stage) : Work Stage :=
  .ask (.headNormal origin stage) fun head => ofParts origin head

def budgetSpent (origin : Term) : Diagnosis :=
  .of (.nonNormalizing origin.text settings.maxReductionSteps) origin.place

def ofApplied (origin argument : Term) (place : Option Location) (head : Stage) : Work Stage :=
  match head.term with
  | .lam name _ body _ =>
      match Stage.contract? name body argument head.budget head.supply with
      | some contracted => .again (.headNormal origin contracted)
      | none => .give (.error (budgetSpent settings origin))
  | _ => .give (.ok ⟨.app head.term argument place, head.budget, head.supply⟩)

def ofHeadNormal (origin : Term) (stage : Stage) : Work Stage :=
  match stage with
  | ⟨.app function argument place, budget, supply⟩ =>
      .ask (.headNormal origin ⟨function, budget, supply⟩) fun head =>
      ofApplied settings origin argument place head
  | stage => .give (.ok stage)

end Work

def Call.work (settings : Settings) : (call : Call) → Work call.Answer
  | .synthesize context expression => .ofSynthesize settings context expression
  | .normalType context expression => .ofNormalType context expression
  | .checkContext context telescope => .ofCheckContext settings context telescope
  | .typeOf expression => .ofTypeOf expression
  | .reduce context term => .ofReduce settings context term
  | .normalize origin stage => .ofNormalize origin stage
  | .headNormal origin stage => .ofHeadNormal settings origin stage

/-! The machine. -/

/-- The calls that wait, each for the answer to the one before it, down to the first. -/
inductive Waiting (first : Call) : Call → Type where
  | nobody : Waiting first first
  | caller {asked asking : Call} (next : asked.Answer → Work asking.Answer)
      (below : Waiting first asking) : Waiting first asked

inductive Machine (first : Call) where
  | running {call : Call} (work : Work call.Answer) (waiting : Waiting first call)
  | finished (outcome : Except Diagnosis first.Answer)

def Waiting.resume {first call : Call} : Waiting first call → call.Answer → Machine first
  | .nobody, answer => .finished (.ok answer)
  | .caller next below, answer => .running (next answer) below

namespace Machine

variable {first : Call}

/-- One call or one answer. A diagnosis ends all calls at once. -/
def step (settings : Settings) : Machine first → Machine first
  | .running (.ask call next) waiting => .running (call.work settings) (.caller next waiting)
  | .running (.give (.ok answer)) waiting => waiting.resume answer
  | .running (.give (.error diagnosis)) _ => .finished (.error diagnosis)
  | .finished outcome => .finished outcome

def start (settings : Settings) (call : Call) : Machine call :=
  .running (call.work settings) .nobody

def Reaches (settings : Settings) (machine later : Machine first) : Prop :=
  ∃ count, (step settings)^[count] machine = later

end Machine

def Call.HaltsWith (settings : Settings) (call : Call) (outcome : Except Diagnosis call.Answer) :
    Prop :=
  ∃ count, ∀ more, count ≤ more →
    (Machine.step settings)^[more] (Machine.start settings call) = .finished outcome

/-! What a call gives, by the definitions of the library. -/

def Stage.within (settings : Settings) (origin : Term) {start : Stage} :
    Option start.After → Except Diagnosis Stage
  | some stage => .ok stage.1
  | none => .error (Work.budgetSpent settings origin)

def Call.outcome (settings : Settings) : (call : Call) → Except Diagnosis call.Answer
  | .synthesize context expression => (TypeInType.synthesize settings context expression).outcome
  | .normalType context expression => (TypeInType.normalType settings context expression).outcome
  | .checkContext context telescope => (TypeInType.checkContext settings context telescope).outcome
  | .typeOf expression => (TypeInType.typeOf settings expression).outcome
  | .reduce context term => settings.reduce context term
  | .normalize origin stage => Stage.within settings origin stage.normalize
  | .headNormal origin stage => Stage.within settings origin stage.headNormal

namespace Work

def outcome (settings : Settings) {α : Type} : Work α → Except Diagnosis α
  | .give outcome => outcome
  | .ask call next => call.outcome settings >>= fun answer => (next answer).outcome settings

def Asks (settings : Settings) {α : Type} : Work α → Call → Prop
  | .give _, _ => False
  | .ask call next, other =>
      other = call ∨
        ∃ answer, call.outcome settings = .ok answer ∧ (next answer).Asks settings other

end Work

section Outcomes

variable (settings : Settings)

theorem outcome_again (call : Call) :
    (Work.again call).outcome settings = call.outcome settings := by
  show call.outcome settings >>= Except.ok = _
  cases call.outcome settings <;> rfl

theorem outcome_ofSynthesize (context expression : Term) :
    (Work.ofSynthesize settings context expression).outcome settings =
      (synthesize settings context expression).outcome := by
  cases expression with
  | sort place => exact (synthesize_sort settings context place).symm
  | var name place =>
      rw [synthesize_var, Work.ofSynthesize]
      cases context.lookup? name <;> rfl
  | app function argument place => exact (synthesize_app settings context ..).symm
  | bind kind name domain body place =>
      cases kind with
      | lambda => exact (synthesize_lam settings context ..).symm
      | pi => exact (synthesize_pi settings context ..).symm

theorem outcome_ofNormalType (context expression : Term) :
    (Work.ofNormalType context expression).outcome settings =
      (normalType settings context expression).outcome := by
  rw [normalType_outcome]
  show (synthesize settings context expression).outcome >>= _ = _
  congr 1
  funext type
  exact outcome_again settings (.reduce context type)

theorem outcome_ofCheckContext (context telescope : Term) :
    (Work.ofCheckContext settings context telescope).outcome settings =
      (checkContext settings context telescope).outcome := by
  unfold Work.ofCheckContext
  split
  · exact (checkContext_sort settings ..).symm
  · split
    · rename_i shaped
      rw [checkContext_last_telescope settings shaped]
      exact outcome_again settings _
    · rename_i shaped
      exact (checkContext_last_type settings (Bool.eq_false_iff.mpr shaped) ..).symm
  · rename_i notSort
    have isNotSort := Term.isSort_of_ne notSort
    split
    · rename_i always
      split
      · rw [checkContext_moves settings (.inl always)]
        exact outcome_again settings _
      · rename_i notPi
        exact (checkContext_malformed settings (.inl always) isNotSort notPi).symm
    · rename_i strict
      exact (checkContext_ambiguous settings (Bool.eq_false_iff.mpr strict) _ _ _ isNotSort _).symm
  · rename_i notPi
    rw [checkContext_moves_under settings notPi]
    exact outcome_again settings _
  · rename_i notPi telescopeNotPi notBoth notLast
    exact (checkContext_shapeless settings notPi telescopeNotPi (Term.not_both_sorts notBoth)).symm

theorem outcome_ofTypeOf (expression : Term) :
    (Work.ofTypeOf expression).outcome settings = (typeOf settings expression).outcome := by
  unfold Work.ofTypeOf
  split
  · rename_i shaped
    exact (typeOf_telescope settings shaped).symm
  · rename_i shaped
    rw [typeOf_other settings (Bool.eq_false_iff.mpr shaped)]
    exact outcome_again settings _

theorem outcome_ofReduce (context term : Term) :
    (Work.ofReduce settings context term).outcome settings = settings.reduce context term := by
  rw [Settings.reduce, reduce]
  show Stage.within settings term _ >>= _ = _
  cases Stage.normalize ⟨term, settings.maxReductionSteps.toNat, .ofTerms [term, context]⟩ <;> rfl

theorem outcome_ofApplied (origin argument : Term) (place : Option Location) {head : Stage}
    {name : String} {domain body : Term} {binderPlace : Option Location}
    (shape : head.term = .lam name domain body binderPlace) :
    (Work.ofApplied settings origin argument place head).outcome settings =
      match Stage.contract? name body argument head.budget head.supply with
      | some contracted => Stage.within settings origin contracted.headNormal
      | none => .error (Work.budgetSpent settings origin) := by
  rw [Work.ofApplied, shape]
  dsimp only
  cases Stage.contract? name body argument head.budget head.supply with
  | none => rfl
  | some contracted => exact outcome_again settings _

theorem outcome_ofHeadNormal (origin : Term) (stage : Stage) :
    (Work.ofHeadNormal settings origin stage).outcome settings =
      Stage.within settings origin stage.headNormal := by
  -- In an application the call for the function comes first, whatever follows.
  have applied : ∀ function argument place budget supply,
      (Work.ofHeadNormal settings origin ⟨.app function argument place, budget, supply⟩).outcome
          settings =
        Stage.within settings origin (Stage.headNormal ⟨function, budget, supply⟩) >>= fun head =>
          (Work.ofApplied settings origin argument place head).outcome settings :=
    fun _ _ _ _ _ => rfl
  fun_induction Stage.headNormal stage with
  | case1 function argument place budget supply failed =>
      rw [applied, failed]
      rfl
  | case2 function argument place budget supply head reached name domain body _ shape failed =>
      rw [applied, reached]
      refine (outcome_ofApplied settings origin argument place shape).trans ?_
      rw [failed]
      rfl
  | case3 function argument place budget supply head reached name domain body _ shape stage
      contracted failed =>
      rw [applied, reached]
      refine (outcome_ofApplied settings origin argument place shape).trans ?_
      rw [contracted]
      dsimp only
      rw [failed]
      rfl
  | case4 function argument place budget supply head reached name domain body _ shape stage
      contracted last returned =>
      rw [applied, reached]
      refine (outcome_ofApplied settings origin argument place shape).trans ?_
      rw [contracted]
      dsimp only
      rw [returned]
      rfl
  | case5 function argument place budget supply head reached notLambda =>
      rw [applied, reached]
      show (Work.ofApplied settings origin argument place head.1).outcome settings = _
      rw [Work.ofApplied]
      split
      · rename_i name domain body binderPlace shape
        exact (notLambda name domain body binderPlace shape).elim
      · rfl
  | case6 stage notApp =>
      rw [Work.ofHeadNormal]
      · rfl
      · exact notApp

theorem outcome_ofBoth (origin left right : Term) (head : Stage) (make : Term → Term → Term) :
    (Work.ofBoth origin left right head make).outcome settings =
      match Stage.normalize ⟨left, head.budget, head.supply⟩ with
      | none => .error (Work.budgetSpent settings origin)
      | some first =>
          match Stage.normalize ⟨right, first.1.budget, first.1.supply⟩ with
          | none => .error (Work.budgetSpent settings origin)
          | some second =>
              .ok ⟨make first.1.term second.1.term, second.1.budget, second.1.supply⟩ := by
  show Stage.within settings origin (Stage.normalize ⟨left, head.budget, head.supply⟩) >>= _ = _
  cases Stage.normalize ⟨left, head.budget, head.supply⟩ with
  | none => rfl
  | some first =>
      dsimp only
      show Stage.within settings origin
        (Stage.normalize ⟨right, first.1.budget, first.1.supply⟩) >>= _ = _
      cases Stage.normalize ⟨right, first.1.budget, first.1.supply⟩ <;> rfl

theorem Work.ofParts_app (origin : Term) {head : Stage} {function argument : Term}
    {place : Option Location} (shape : head.term = .app function argument place) :
    Work.ofParts origin head = Work.ofBoth origin function argument head (.app · · place) := by
  rw [Work.ofParts, shape]

theorem Work.ofParts_bind (origin : Term) {head : Stage} {kind : BinderKind} {name : String}
    {domain body : Term} {place : Option Location}
    (shape : head.term = .bind kind name domain body place) :
    Work.ofParts origin head = Work.ofBoth origin domain body head (.bind kind name · · place) := by
  rw [Work.ofParts, shape]

theorem outcome_ofNormalize (origin : Term) (stage : Stage) :
    (Work.ofNormalize origin stage).outcome settings =
      Stage.within settings origin stage.normalize := by
  have parted : (Work.ofNormalize origin stage).outcome settings =
      Stage.within settings origin stage.headNormal >>= fun head =>
        (Work.ofParts origin head).outcome settings :=
    rfl
  have withHead : ∀ head, stage.headNormal = some head →
      (Work.ofNormalize origin stage).outcome settings =
        (Work.ofParts origin head.1).outcome settings := by
    intro head reached
    rw [parted, reached]
    rfl
  fun_cases Stage.normalize stage with
  | case1 failed =>
      rw [parted, failed]
      rfl
  | case2 head reached function argument place shape failed =>
      rw [withHead head reached, Work.ofParts_app origin shape, outcome_ofBoth, failed]
      rfl
  | case3 head reached function argument place shape first found failed =>
      rw [withHead head reached, Work.ofParts_app origin shape, outcome_ofBoth, found]
      dsimp only
      rw [failed]
      rfl
  | case4 head reached function argument place shape first found second foundLast =>
      rw [withHead head reached, Work.ofParts_app origin shape, outcome_ofBoth, found]
      dsimp only
      rw [foundLast]
      rfl
  | case5 head reached kind name domain body place shape failed =>
      rw [withHead head reached, Work.ofParts_bind origin shape, outcome_ofBoth, failed]
      rfl
  | case6 head reached kind name domain body place shape first found failed =>
      rw [withHead head reached, Work.ofParts_bind origin shape, outcome_ofBoth, found]
      dsimp only
      rw [failed]
      rfl
  | case7 head reached kind name domain body place shape first found second foundLast =>
      rw [withHead head reached, Work.ofParts_bind origin shape, outcome_ofBoth, found]
      dsimp only
      rw [foundLast]
      rfl
  | case8 head reached notApp notBind =>
      rw [withHead head reached, Work.ofParts]
      split
      · rename_i function argument place shape
        exact (notApp function argument place shape).elim
      · rename_i kind name domain body place shape
        exact (notBind kind name domain body place shape).elim
      · rfl

/-- A call does by itself what the definition says, given its calls do. -/
theorem outcome_work (call : Call) :
    (call.work settings).outcome settings = call.outcome settings := by
  cases call with
  | synthesize context expression => exact outcome_ofSynthesize settings context expression
  | normalType context expression => exact outcome_ofNormalType settings context expression
  | checkContext context telescope => exact outcome_ofCheckContext settings context telescope
  | typeOf expression => exact outcome_ofTypeOf settings expression
  | reduce context term => exact outcome_ofReduce settings context term
  | normalize origin stage => exact outcome_ofNormalize settings origin stage
  | headNormal origin stage => exact outcome_ofHeadNormal settings origin stage

end Outcomes

/-! What gets smaller from a call to the calls it makes. -/

/-- The judgements look at context and expression together, then at the expression alone; the
reducer, at the budget that is left before the term. -/
def Call.extent (settings : Settings) : Call → Nat × Nat × Nat
  | .synthesize context expression => (context.size + expression.size, expression.size, 0)
  | .normalType context expression => (context.size + expression.size, expression.size, 1)
  | .checkContext context telescope => (context.size + telescope.size, telescope.size, 0)
  | .typeOf expression => (1 + expression.size, expression.size, 2)
  | .reduce _ _ => (0, settings.maxReductionSteps.toNat + 1, 0)
  | .normalize _ stage => (0, stage.budget, 2 * stage.term.size + 1)
  | .headNormal _ stage => (0, stage.budget, 2 * stage.term.size)

def Call.Smaller (settings : Settings) (next call : Call) : Prop :=
  Prod.Lex (· < ·) (Prod.Lex (· < ·) (· < ·)) (next.extent settings) (call.extent settings)

theorem Call.wellFounded_smaller (settings : Settings) :
    WellFounded (Call.Smaller settings) :=
  InvImage.wf _ (Prod.lex Nat.lt_wfRel (Prod.lex Nat.lt_wfRel Nat.lt_wfRel)).wf

theorem Stage.follows_of_within {settings : Settings} {origin : Term} {start stage : Stage}
    {reached : Option start.After}
    (returned : Stage.within settings origin reached = .ok stage) : stage.Follows start := by
  cases reached with
  | none => exact nomatch returned
  | some last =>
      cases returned
      exact last.2

section Smaller

variable {settings : Settings}

theorem Call.smaller_iff {next call : Call} :
    next.Smaller settings call ↔
      (next.extent settings).1 < (call.extent settings).1 ∨
        (next.extent settings).1 = (call.extent settings).1 ∧
          ((next.extent settings).2.1 < (call.extent settings).2.1 ∨
            (next.extent settings).2.1 = (call.extent settings).2.1 ∧
              (next.extent settings).2.2 < (call.extent settings).2.2) := by
  simp only [Call.Smaller, Prod.lex_def]

theorem smaller_ofSynthesize {context expression : Term} {next : Call}
    (asked : (Work.ofSynthesize settings context expression).Asks settings next) :
    next.Smaller settings (.synthesize context expression) := by
  cases expression with
  | sort place => exact asked.elim
  | var name place =>
      rw [Work.ofSynthesize] at asked
      split at asked <;> exact asked.elim
  | app function argument place =>
      obtain rfl | ⟨_, -, rfl | ⟨_, -, ⟨⟩⟩⟩ := asked
      all_goals
        rw [Call.smaller_iff]
        dsimp only [Call.extent, Term.size]
        omega
  | bind kind name domain body place =>
      cases kind
      all_goals
        obtain rfl | ⟨_, -, ⟨⟩⟩ := asked
        rw [Call.smaller_iff]
        dsimp only [Call.extent, Term.size, Term.withBinding]
        omega

theorem smaller_ofNormalType {context expression : Term} {next : Call}
    (asked : (Work.ofNormalType context expression).Asks settings next) :
    next.Smaller settings (.normalType context expression) := by
  have := expression.size_pos
  obtain rfl | ⟨_, -, rfl | ⟨_, -, ⟨⟩⟩⟩ := asked
  all_goals
    rw [Call.smaller_iff]
    dsimp only [Call.extent]
    omega

theorem smaller_moved (context : Term) (name : String) (domain body : Term)
    (place : Option Location) :
    (Call.checkContext (context.withBinding name domain) body).Smaller settings
      (.checkContext context (.pi name domain body place)) := by
  rw [Call.smaller_iff]
  dsimp only [Call.extent, Term.size, Term.withBinding]
  omega

theorem smaller_ofCheckContext {context telescope : Term} {next : Call}
    (asked : (Work.ofCheckContext settings context telescope).Asks settings next) :
    next.Smaller settings (.checkContext context telescope) := by
  unfold Work.ofCheckContext at asked
  split at asked
  · exact asked.elim
  · -- The loop turns around: a bound type is looked at under the rest of the context.
    split at asked
    all_goals
      obtain rfl | ⟨_, -, ⟨⟩⟩ := asked
      rw [Call.smaller_iff]
      dsimp only [Call.extent, Term.size]
      omega
  · split at asked
    · split at asked
      · obtain rfl | ⟨_, -, ⟨⟩⟩ := asked
        exact smaller_moved ..
      · exact asked.elim
    · exact asked.elim
  · obtain rfl | ⟨_, -, ⟨⟩⟩ := asked
    exact smaller_moved ..
  · exact asked.elim

theorem smaller_ofTypeOf {expression : Term} {next : Call}
    (asked : (Work.ofTypeOf expression).Asks settings next) :
    next.Smaller settings (.typeOf expression) := by
  unfold Work.ofTypeOf at asked
  split at asked
  all_goals
    obtain rfl | ⟨_, -, ⟨⟩⟩ := asked
    rw [Call.smaller_iff]
    dsimp only [Call.extent, Term.size]
    omega

theorem smaller_ofReduce {context term : Term} {next : Call}
    (asked : (Work.ofReduce settings context term).Asks settings next) :
    next.Smaller settings (.reduce context term) := by
  obtain rfl | ⟨_, -, ⟨⟩⟩ := asked
  rw [Call.smaller_iff]
  dsimp only [Call.extent]
  omega

theorem smaller_ofBoth {origin left right : Term} {head stage : Stage}
    {make : Term → Term → Term} {next : Call} (follows : head.Follows stage)
    (parts : left.size + right.size < head.term.size)
    (asked : (Work.ofBoth origin left right head make).Asks settings next) :
    next.Smaller settings (.normalize origin stage) := by
  unfold Stage.Follows at follows
  obtain rfl | ⟨first, found, rfl | ⟨_, -, ⟨⟩⟩⟩ := asked
  · rw [Call.smaller_iff]
    dsimp only [Call.extent]
    omega
  · have := (Stage.follows_of_within found).budget_le
    rw [Call.smaller_iff]
    dsimp only [Call.extent] at *
    omega

theorem smaller_ofNormalize {origin : Term} {stage : Stage} {next : Call}
    (asked : (Work.ofNormalize origin stage).Asks settings next) :
    next.Smaller settings (.normalize origin stage) := by
  obtain rfl | ⟨head, reached, asked⟩ := asked
  · rw [Call.smaller_iff]
    dsimp only [Call.extent]
    omega
  · have follows := Stage.follows_of_within reached
    change (Work.ofParts origin head).Asks settings next at asked
    unfold Work.ofParts at asked
    split at asked
    · rename_i shape
      refine smaller_ofBoth follows ?_ asked
      simp only [shape, Term.size]
      omega
    · rename_i shape
      refine smaller_ofBoth follows ?_ asked
      simp only [shape, Term.size]
      omega
    · exact asked.elim

/-- Before the contraction the term is a part of the one before; the contraction itself costs. -/
theorem smaller_ofHeadNormal {origin : Term} {stage : Stage} {next : Call}
    (asked : (Work.ofHeadNormal settings origin stage).Asks settings next) :
    next.Smaller settings (.headNormal origin stage) := by
  unfold Work.ofHeadNormal at asked
  split at asked
  · rename_i function argument place budget supply
    obtain rfl | ⟨head, reached, asked⟩ := asked
    · rw [Call.smaller_iff]
      dsimp only [Call.extent, Term.size]
      omega
    · have spent := (Stage.follows_of_within reached).budget_le
      change (Work.ofApplied settings origin argument place head).Asks settings next at asked
      unfold Work.ofApplied at asked
      split at asked
      · split at asked
        · rename_i contracted found
          have cost := Stage.budget_of_contract? found
          obtain rfl | ⟨_, -, ⟨⟩⟩ := asked
          rw [Call.smaller_iff]
          dsimp only [Call.extent] at *
          omega
        · exact asked.elim
      · exact asked.elim
  · exact asked.elim

theorem Call.smaller_of_asks {call next : Call}
    (asked : (call.work settings).Asks settings next) : next.Smaller settings call := by
  cases call with
  | synthesize context expression => exact smaller_ofSynthesize asked
  | normalType context expression => exact smaller_ofNormalType asked
  | checkContext context telescope => exact smaller_ofCheckContext asked
  | typeOf expression => exact smaller_ofTypeOf asked
  | reduce context term => exact smaller_ofReduce asked
  | normalize origin stage => exact smaller_ofNormalize asked
  | headNormal origin stage => exact smaller_ofHeadNormal asked

end Smaller

/-! Whole runs. -/

def Waiting.settle {first call : Call} (waiting : Waiting first call) :
    Except Diagnosis call.Answer → Machine first
  | .ok answer => waiting.resume answer
  | .error diagnosis => .finished (.error diagnosis)

namespace Machine

variable {first : Call} {settings : Settings}

theorem Reaches.step (machine : Machine first) : machine.Reaches settings (machine.step settings) :=
  ⟨1, rfl⟩

theorem Reaches.trans {machine later last : Machine first}
    (earlier : machine.Reaches settings later) (rest : later.Reaches settings last) :
    machine.Reaches settings last := by
  obtain ⟨count, rfl⟩ := earlier
  obtain ⟨more, rfl⟩ := rest
  exact ⟨more + count, Function.iterate_add_apply ..⟩

/-- The steps of one call, when the calls that it makes come to an end. -/
theorem reaches_of_asks {call : Call} (work : Work call.Answer)
    (below : ∀ next, work.Asks settings next → ∀ waiting : Waiting first next,
      (running (next.work settings) waiting).Reaches settings
        (waiting.settle (next.outcome settings)))
    (waiting : Waiting first call) :
    (running work waiting).Reaches settings (waiting.settle (work.outcome settings)) := by
  induction work with
  | give outcome => cases outcome <;> exact .step _
  | ask asked next ih =>
      have made := (Reaches.step (running (.ask asked next) waiting)).trans
        (below asked (.inl rfl) (.caller next waiting))
      rw [Work.outcome]
      cases answered : asked.outcome settings with
      | error diagnosis =>
          rw [answered] at made
          exact made
      | ok answer =>
          rw [answered] at made
          refine made.trans (ih answer fun other asks => ?_)
          exact below other (.inr ⟨answer, answered, asks⟩)

theorem reaches_settled (call : Call) (waiting : Waiting first call) :
    (running (call.work settings) waiting).Reaches settings
      (waiting.settle (call.outcome settings)) := by
  induction call using (Call.wellFounded_smaller settings).induction with
  | h call ih =>
      rw [← outcome_work settings call]
      exact reaches_of_asks (call.work settings)
        (fun next asked => ih next (Call.smaller_of_asks asked)) waiting

end Machine

theorem Call.haltsWith_outcome (settings : Settings) (call : Call) :
    call.HaltsWith settings (call.outcome settings) := by
  have reached : (Machine.start settings call).Reaches settings
      (.finished (call.outcome settings)) := by
    have settled : (Machine.start settings call).Reaches settings
        (Waiting.nobody.settle (call.outcome settings)) := Machine.reaches_settled call .nobody
    cases ended : call.outcome settings <;> rw [ended] at settled <;> exact settled
  obtain ⟨count, finishes⟩ := reached
  refine ⟨count, fun more atLeast => ?_⟩
  obtain ⟨extra, rfl⟩ := Nat.exists_eq_add_of_le' atLeast
  rw [Function.iterate_add_apply, finishes]
  exact Function.iterate_fixed rfl extra

/-- The judgements and the check of a whole expression come to an end, with the outcome of their
definitions: on every context, one that was checked or not, and with any budget. -/
theorem judgements_terminate (settings : Settings) :
    (∀ context expression, (Call.synthesize context expression).HaltsWith settings
      (synthesize settings context expression).outcome) ∧
    (∀ context expression, (Call.normalType context expression).HaltsWith settings
      (normalType settings context expression).outcome) ∧
    (∀ context telescope, (Call.checkContext context telescope).HaltsWith settings
      (checkContext settings context telescope).outcome) ∧
    ∀ expression, (Call.typeOf expression).HaltsWith settings
      (typeOf settings expression).outcome :=
  ⟨fun context expression => Call.haltsWith_outcome settings (.synthesize context expression),
    fun context expression => Call.haltsWith_outcome settings (.normalType context expression),
    fun context telescope => Call.haltsWith_outcome settings (.checkContext context telescope),
    fun expression => Call.haltsWith_outcome settings (.typeOf expression)⟩

end TypeInType
