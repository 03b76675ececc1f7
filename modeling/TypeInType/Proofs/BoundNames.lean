import Mathlib.Logic.Relation
import TypeInType.Proofs.NormalOrder
import TypeInType.Proofs.Rules
import TypeInType.Proofs.Variant

/-!
Bound names and typing. A looked-up type is returned as it was written, so a name
bound later may capture what is free in it, whatever the settings. Where the
checker makes no such lookup, terms that differ in bound names only get types that
differ in bound names only, or are refused for the same kind of reason.
-/

namespace TypeInType

namespace Question

/-- No lookup on the way to the answer captures a name. -/
def LookupsClear (settings : Settings) (question : Question) : Prop :=
  ∀ context name place,
    Relation.ReflTransGen (RestsOn settings) question (.typing context (.var name place)) →
      context.LookupClear name

variable {settings : Settings}

theorem LookupsClear.after {question next : Question} (clear : question.LookupsClear settings)
    (step : RestsOn settings question next) : next.LookupsClear settings :=
  fun context name place reaches => clear context name place (.head step reaches)

theorem LookupsClear.here {context : Term} {name : String} {place : Option Location}
    (clear : (Question.typing context (.var name place)).LookupsClear settings) :
    context.LookupClear name :=
  clear context name place .refl

def Distinct : Question → Prop
  | .typing context expression => context.DistinctContext ∧ expression.Distinct context.allNames
  | .isContext context telescope => context.DistinctContext ∧ telescope.Distinct context.allNames

theorem RestsOn.distinct {question next : Question} (step : RestsOn settings question next)
    (distinct : question.Distinct) : next.Distinct := by
  cases step with
  | function => exact ⟨distinct.1, distinct.2.in_function⟩
  | argument => exact ⟨distinct.1, distinct.2.in_argument⟩
  | body => exact ⟨distinct.1.withBinding distinct.2, distinct.2.in_body⟩
  | codomain => exact ⟨distinct.1.withBinding distinct.2, distinct.2.in_body⟩
  | moved => exact ⟨distinct.1.withBinding distinct.2, distinct.2.in_body⟩
  | lastTelescope =>
      cases distinct.1 with
      | binding _ rest type _ _ => exact ⟨rest, type⟩
  | lastType =>
      cases distinct.1 with
      | binding _ rest type _ _ => exact ⟨rest, type⟩

theorem distinct_of_reaches {question reached : Question} (distinct : question.Distinct)
    (reaches : Relation.ReflTransGen (RestsOn settings) question reached) : reached.Distinct := by
  induction reaches with
  | refl => exact distinct
  | tail _ step ih => exact step.distinct ih

theorem LookupsClear.of_distinct {question : Question} (distinct : question.Distinct) :
    question.LookupsClear settings :=
  fun _ name _ reaches => Term.lookupClear_of_distinct (distinct_of_reaches distinct reaches).1 name

theorem distinct_first {expression : Term} (distinct : expression.Distinct []) :
    (first expression).Distinct := by
  rw [first]
  split <;> exact ⟨.empty none, distinct⟩

end Question

/-! Two outcomes agree when both are values that are related, or both diagnoses of
one kind. -/

inductive OutcomesAgree {α β : Type} (related : α → β → Prop) :
    Except Diagnosis α → Except Diagnosis β → Prop
  | values {left : α} {right : β} :
      related left right → OutcomesAgree related (.ok left) (.ok right)
  | diagnoses {left right : Diagnosis} :
      left.cause.kind = right.cause.kind → OutcomesAgree related (.error left) (.error right)

namespace OutcomesAgree

variable {α β γ δ : Type} {related : α → β → Prop} {after : γ → δ → Prop}

theorem bind {left : Except Diagnosis α} {right : Except Diagnosis β}
    {leftNext : α → Except Diagnosis γ} {rightNext : β → Except Diagnosis δ}
    (agree : OutcomesAgree related left right)
    (next : ∀ first second, left = .ok first → right = .ok second → related first second →
      OutcomesAgree after (leftNext first) (rightNext second)) :
    OutcomesAgree after (left >>= leftNext) (right >>= rightNext) := by
  cases agree with
  | values isRelated => exact next _ _ rfl rfl isRelated
  | diagnoses sameKind => exact .diagnoses sameKind

theorem mono {stronger weaker : α → β → Prop}
    (implies : ∀ left right, stronger left right → weaker left right)
    {left : Except Diagnosis α} {right : Except Diagnosis β}
    (agree : OutcomesAgree stronger left right) : OutcomesAgree weaker left right := by
  cases agree with
  | values related => exact .values (implies _ _ related)
  | diagnoses sameKind => exact .diagnoses sameKind

end OutcomesAgree

namespace Term

/-- The terms say the same, each under the names of its own context. -/
def AlikeUnder (context other left right : Term) : Prop :=
  left.namelessUnder context.boundNames = right.namelessUnder other.boundNames

theorem ContextsAlike.withBinding {context other : Term} (contexts : ContextsAlike context other)
    (name otherName : String) {domain otherDomain : Term}
    (same : AlikeUnder context other domain otherDomain) :
    ContextsAlike (context.withBinding name domain) (other.withBinding otherName otherDomain) :=
  .binding none none same contexts

end Term

open Term

theorem reduce_outcomes_agree (settings : Settings) {context other left right : Term}
    (alike : AlikeUnder context other left right) :
    OutcomesAgree (AlikeUnder context other) (settings.reduce context left)
      (settings.reduce other right) := by
  rcases reduce_ok_or_error context left settings.maxReductionSteps with ⟨result, returned⟩ | failed
  · obtain ⟨otherResult, otherReturned, sameResult⟩ :=
      reduce_agrees context other left right _ _ _ alike result returned
    rw [Settings.reduce, Settings.reduce, returned, otherReturned]
    exact .values sameResult
  · rcases reduce_ok_or_error other right settings.maxReductionSteps with
      ⟨result, returned⟩ | otherFailed
    · obtain ⟨otherResult, otherReturned, _⟩ :=
        reduce_agrees other context right left _ _ _ alike.symm result returned
      rw [failed] at otherReturned
      cases otherReturned
    · rw [Settings.reduce, Settings.reduce, failed, otherFailed]
      exact .diagnoses rfl

theorem normalType_outcomes_agree (settings : Settings) {context other left right : Term}
    (agree : OutcomesAgree (AlikeUnder context other) (synthesize settings context left).outcome
      (synthesize settings other right).outcome) :
    OutcomesAgree (AlikeUnder context other) (normalType settings context left).outcome
      (normalType settings other right).outcome := by
  rw [normalType_outcome, normalType_outcome]
  exact agree.bind fun _ _ _ _ alike => reduce_outcomes_agree settings alike

theorem applicationType_outcomes_agree {settings : Settings}
    (avoiding : settings.captureAvoiding = true)
    {context other functionType argumentType argument otherFunctionType otherArgumentType
      otherArgument : Term}
    (sameFunctionType : AlikeUnder context other functionType otherFunctionType)
    (sameArgumentType : AlikeUnder context other argumentType otherArgumentType)
    (sameArgument : AlikeUnder context other argument otherArgument)
    (function otherFunction : Term) (place otherPlace : Option Location) :
    OutcomesAgree (AlikeUnder context other)
      (applicationType settings functionType argumentType function argument place)
      (applicationType settings otherFunctionType otherArgumentType otherFunction otherArgument
        otherPlace) := by
  cases sameShape_of_namelessUnder_eq sameFunctionType with
  | @bind kind name otherName domain codomain otherDomain otherCodomain _ _ sameDomain
      sameCodomain =>
      cases kind with
      | lambda => exact .diagnoses rfl
      | pi =>
          -- The test sees bare names, but both of its terms stand under the same binders.
          have sameTest : Term.alphaEquivalent [] argumentType domain =
              Term.alphaEquivalent [] otherArgumentType otherDomain := by
            rw [Bool.eq_iff_iff, alphaEquivalent_nil_iff, alphaEquivalent_nil_iff,
              ← namelessUnder_eq_iff context.boundNames, ← namelessUnder_eq_iff other.boundNames,
              sameArgumentType, sameDomain]
          rw [applicationType, applicationType, sameTest]
          split
          · refine .values ?_
            rw [AlikeUnder, Settings.instantiate, Settings.instantiate, if_pos avoiding,
              if_pos avoiding, namelessUnder_substituteAvoiding, namelessUnder_substituteAvoiding,
              sameCodomain, sameArgument]
          · exact .diagnoses rfl
  | _ => exact .diagnoses rfl

inductive QuestionsAlike : Question → Question → Prop
  | typing {context other expression otherExpression : Term} :
      ContextsAlike context other → AlikeUnder context other expression otherExpression →
        QuestionsAlike (.typing context expression) (.typing other otherExpression)
  | isContext {context other telescope otherTelescope : Term} :
      ContextsAlike context other → AlikeUnder context other telescope otherTelescope →
        QuestionsAlike (.isContext context telescope) (.isContext other otherTelescope)

def AnswersAgree (settings : Settings) : Question → Question → Prop
  | .typing context expression, .typing other otherExpression =>
      OutcomesAgree (AlikeUnder context other) (synthesize settings context expression).outcome
        (synthesize settings other otherExpression).outcome
  | .isContext context telescope, .isContext other otherTelescope =>
      OutcomesAgree Eq (checkContext settings context telescope).outcome
        (checkContext settings other otherTelescope).outcome
  | _, _ => False

def BelowAgree (settings : Settings) (question other : Question) : Prop :=
  ∀ next otherNext, Question.RestsOn settings question next →
    Question.RestsOn settings other otherNext → QuestionsAlike next otherNext →
      AnswersAgree settings next otherNext

section Step

variable {settings : Settings} {context other : Term}

/-- Beside a clear lookup of the same variable, only a clear one gives the same answer. -/
theorem variable_answers_agree_iff (settings : Settings) (contexts : ContextsAlike context other)
    {name otherName : String}
    (same : position context.boundNames name = position other.boundNames otherName)
    (otherClear : other.LookupClear otherName) (place otherPlace : Option Location) :
    AnswersAgree settings (.typing context (.var name place))
        (.typing other (.var otherName otherPlace)) ↔
      context.LookupClear name := by
  rw [AnswersAgree, synthesize_var, synthesize_var]
  rcases lookup_alike contexts same with ⟨missing, otherMissing⟩ |
    ⟨type, otherType, found, otherFound, sameCount, sameBefore⟩
  · rw [missing, otherMissing]
    constructor
    · intro _ type found
      rw [missing] at found
      cases found
    · exact fun _ => .diagnoses rfl
  · rw [found, otherFound, lookupClear_iff found, sameCount, sameBefore,
      ← (lookupClear_iff otherFound).mp otherClear]
    constructor
    · intro agree
      cases agree with
      | values alike => exact alike
    · exact fun alike => .values alike

theorem synthesize_step (avoiding : settings.captureAvoiding = true)
    (contexts : ContextsAlike context other) {expression otherExpression : Term}
    (alike : AlikeUnder context other expression otherExpression)
    (clear : (Question.typing context expression).LookupsClear settings)
    (otherClear : (Question.typing other otherExpression).LookupsClear settings)
    (below : BelowAgree settings (.typing context expression) (.typing other otherExpression)) :
    AnswersAgree settings (.typing context expression) (.typing other otherExpression) := by
  rw [AnswersAgree]
  cases sameShape_of_namelessUnder_eq alike with
  | sort place otherPlace =>
      rw [synthesize_sort, synthesize_sort]
      exact .values rfl
  | var place otherPlace samePosition =>
      exact (variable_answers_agree_iff settings contexts samePosition otherClear.here place
        otherPlace).mpr clear.here
  | app place otherPlace sameFunction sameArgument =>
      rw [synthesize_app, synthesize_app]
      have functions := normalType_outcomes_agree settings
        (below _ _ (.function ..) (.function ..) (.typing contexts sameFunction))
      refine functions.bind fun functionType otherFunctionType typed otherTyped sameType => ?_
      -- The argument is asked about only now that the function has a type on both sides.
      have arguments := normalType_outcomes_agree settings
        (below _ _ (.argument _ _ typed) (.argument _ _ otherTyped) (.typing contexts sameArgument))
      refine arguments.bind fun argumentType otherArgumentType _ _ sameArgumentType => ?_
      exact applicationType_outcomes_agree avoiding sameType sameArgumentType sameArgument ..
  | @bind kind name otherName domain body otherDomain otherBody place otherPlace sameDomain
      sameBody =>
      have inside := contexts.withBinding name otherName sameDomain
      cases kind with
      | lambda =>
          rw [synthesize_lam, synthesize_lam]
          have bodies := normalType_outcomes_agree settings
            (below _ _ (.body ..) (.body ..) (.typing inside sameBody))
          refine bodies.bind fun bodyType otherBodyType _ _ sameType => .values ?_
          rw [AlikeUnder, namelessUnder, namelessUnder, sameDomain]
          exact congrArg _ sameType
      | pi =>
          rw [synthesize_pi, synthesize_pi]
          have valid := below _ _ (.codomain ..) (.codomain ..) (.isContext inside sameBody)
          refine OutcomesAgree.bind valid fun answer otherAnswer _ _ same => ?_
          subst same
          cases answer with
          | true => exact .values rfl
          | false => exact .diagnoses rfl

theorem checkContext_last_step {bound otherBound : String} {type rest otherType otherRest : Term}
    {place otherPlace sortPlace otherSortPlace : Option Location}
    (rests : ContextsAlike rest otherRest)
    (sameType : AlikeUnder rest otherRest type otherType)
    (below : BelowAgree settings (.isContext (.pi bound type rest place) (.sort sortPlace))
      (.isContext (.pi otherBound otherType otherRest otherPlace) (.sort otherSortPlace))) :
    AnswersAgree settings (.isContext (.pi bound type rest place) (.sort sortPlace))
      (.isContext (.pi otherBound otherType otherRest otherPlace) (.sort otherSortPlace)) := by
  rw [AnswersAgree]
  have sameShape := isTelescope_of_namelessUnder_eq sameType
  cases shaped : type.isTelescope with
  | true =>
      rw [shaped] at sameShape
      rw [checkContext_last_telescope settings shaped,
        checkContext_last_telescope settings sameShape.symm]
      exact below _ _ (.lastTelescope _ _ _ _ shaped) (.lastTelescope _ _ _ _ sameShape.symm)
        (.isContext rests sameType)
  | false =>
      rw [shaped] at sameShape
      rw [checkContext_last_type settings shaped, checkContext_last_type settings sameShape.symm]
      have types := normalType_outcomes_agree settings
        (below _ _ (.lastType _ _ _ _ shaped) (.lastType _ _ _ _ sameShape.symm)
          (.typing rests sameType))
      refine types.bind fun sort otherSort _ _ same => .values ?_
      exact isSort_of_sameShape (sameShape_of_namelessUnder_eq same)

theorem checkContext_ruled_step (contexts : ContextsAlike context other)
    (ruled : settings.contextFallthrough = true ∨ context.isSort = true)
    (otherRuled : settings.contextFallthrough = true ∨ other.isSort = true)
    {telescope otherTelescope : Term}
    (alike : AlikeUnder context other telescope otherTelescope)
    (notSort : telescope.isSort = false)
    (below : BelowAgree settings (.isContext context telescope)
      (.isContext other otherTelescope)) :
    AnswersAgree settings (.isContext context telescope) (.isContext other otherTelescope) := by
  rw [AnswersAgree]
  have neither : ∀ {left right : Term}, left.isSort = false → right.isSort = false →
      (∀ name domain body place, left ≠ .pi name domain body place) →
      (∀ name domain body place, right ≠ .pi name domain body place) →
        OutcomesAgree Eq (checkContext settings context left).outcome
          (checkContext settings other right).outcome := by
    intro left right leftNotSort rightNotSort leftNotPi rightNotPi
    rw [checkContext_malformed settings ruled leftNotSort leftNotPi,
      checkContext_malformed settings otherRuled rightNotSort rightNotPi]
    exact .values rfl
  cases sameShape_of_namelessUnder_eq alike with
  | sort place otherPlace => cases notSort
  | @bind kind name otherName domain body otherDomain otherBody place otherPlace sameDomain
      sameBody =>
      cases kind with
      | lambda => exact neither rfl rfl (by simp) (by simp)
      | pi =>
          rw [checkContext_moves settings ruled, checkContext_moves settings otherRuled]
          exact below _ _ (.moved _ _ _ _ ruled) (.moved _ _ _ _ otherRuled)
            (.isContext (contexts.withBinding name otherName sameDomain) sameBody)
  | _ => exact neither rfl rfl (by simp) (by simp)

theorem checkContext_step (contexts : ContextsAlike context other)
    {telescope otherTelescope : Term}
    (alike : AlikeUnder context other telescope otherTelescope)
    (below : BelowAgree settings (.isContext context telescope)
      (.isContext other otherTelescope)) :
    AnswersAgree settings (.isContext context telescope) (.isContext other otherTelescope) := by
  have shape := sameShape_of_namelessUnder_eq alike
  have sameSort := isSort_of_sameShape shape
  cases isSort : telescope.isSort with
  | true =>
      cases shape with
      | sort place otherPlace =>
          cases contexts with
          | empty =>
              rw [AnswersAgree, checkContext_sort, checkContext_sort]
              exact .values rfl
          | binding _ _ sameType rests => exact checkContext_last_step rests sameType below
      | _ => cases isSort
  | false =>
      rw [isSort] at sameSort
      cases always : settings.contextFallthrough with
      | true =>
          exact checkContext_ruled_step contexts (.inl always) (.inl always) alike isSort below
      | false =>
          cases contexts with
          | empty place otherPlace =>
              exact checkContext_ruled_step (.empty place otherPlace) (.inr rfl) (.inr rfl) alike
                isSort below
          | binding =>
              rw [AnswersAgree, checkContext_ambiguous settings always _ _ _ isSort,
                checkContext_ambiguous settings always _ _ _ sameSort.symm]
              exact .diagnoses rfl

end Step

theorem answers_agree {settings : Settings} (avoiding : settings.captureAvoiding = true)
    {question other : Question} (alike : QuestionsAlike question other)
    (clear : question.LookupsClear settings) (otherClear : other.LookupsClear settings) :
    AnswersAgree settings question other := by
  -- Both sides go to smaller questions together, so induction on one side is enough.
  induction question using (Question.wellFounded_restsOn settings).induction generalizing other with
  | _ question ih =>
    have below : BelowAgree settings question other := fun next otherNext step otherStep alike =>
      ih next step alike (clear.after step) (otherClear.after otherStep)
    cases alike with
    | typing contexts alike => exact synthesize_step avoiding contexts alike clear otherClear below
    | isContext contexts alike => exact checkContext_step contexts alike below

theorem normalType_of_normal {settings : Settings} {context expression type : Term}
    (typed : (synthesize settings context expression).outcome = .ok type)
    (normal : type.isNormal = true) :
    (normalType settings context expression).outcome = .ok type := by
  rw [normalType_outcome, typed]
  exact reduce_of_isNormal normal context settings.maxReductionSteps

theorem synthesize_lam_of_normal {settings : Settings} {context domain body bodyType : Term}
    {name : String} (place : Option Location) (normal : bodyType.isNormal = true)
    (typed : (synthesize settings (context.withBinding name domain) body).outcome = .ok bodyType) :
    (synthesize settings context (.lam name domain body place)).outcome =
      .ok (.pi name domain bodyType place) := by
  rw [synthesize_lam, normalType_of_normal typed normal]
  rfl

theorem alikeUnder_sort_iff (left right : Term) (place otherPlace : Option Location) :
    AlikeUnder (.sort place) (.sort otherPlace) left right ↔ left.alphaEquivalent [] right = true :=
  (alphaEquivalent_nil_iff left right).symm

theorem typeOf_outcomes_agree {settings : Settings} (avoiding : settings.captureAvoiding = true)
    {left right : Term} (same : left.alphaEquivalent [] right = true)
    (leftClear : (Question.first left).LookupsClear settings)
    (rightClear : (Question.first right).LookupsClear settings) :
    OutcomesAgree (fun leftType rightType => leftType.alphaEquivalent [] rightType = true)
      (typeOf settings left).outcome (typeOf settings right).outcome := by
  have contexts := ContextsAlike.empty none none
  have alike := (alikeUnder_sort_iff left right none none).mpr same
  have sameShape := isTelescope_of_namelessUnder_eq alike
  rw [Question.first] at leftClear rightClear
  by_cases shaped : left.isTelescope = true
  · have otherShaped : right.isTelescope = true := sameShape ▸ shaped
    rw [if_pos shaped] at leftClear
    rw [if_pos otherShaped] at rightClear
    rw [typeOf_telescope settings shaped, typeOf_telescope settings otherShaped]
    have valid := answers_agree avoiding (.isContext contexts alike) leftClear rightClear
    refine OutcomesAgree.bind valid fun answer otherAnswer _ _ same => ?_
    subst same
    cases answer with
    | true => exact .values rfl
    | false => exact .diagnoses rfl
  · rw [if_neg shaped] at leftClear
    rw [Bool.not_eq_true] at shaped
    have otherShaped : right.isTelescope = false := sameShape ▸ shaped
    rw [otherShaped] at rightClear
    rw [typeOf_other settings shaped, typeOf_other settings otherShaped]
    have types := normalType_outcomes_agree settings
      (answers_agree avoiding (.typing contexts alike) leftClear rightClear)
    exact types.mono fun leftType rightType => (alikeUnder_sort_iff leftType rightType none none).mp

/-- Bound names have no say in typing among the expressions whose lookups capture
nothing, and every expression has a variant of that kind. For a single lookup the
condition is exact: beside a clear one, the answer agrees only if it is clear too. -/
theorem typing_ignores_bound_names (settings : Settings)
    (avoiding : settings.captureAvoiding = true) :
    (∀ left right : Term, left.alphaEquivalent [] right = true →
      (Question.first left).LookupsClear settings →
      (Question.first right).LookupsClear settings →
        OutcomesAgree (fun leftType rightType => leftType.alphaEquivalent [] rightType = true)
          (typeOf settings left).outcome (typeOf settings right).outcome) ∧
      (∀ expression : Term, ∃ variant : Term, expression.alphaEquivalent [] variant = true ∧
        (Question.first variant).LookupsClear settings) ∧
      ∀ context other : Term, ContextsAlike context other → ∀ name otherName : String,
        position context.boundNames name = position other.boundNames otherName →
        other.LookupClear otherName → ∀ place otherPlace : Option Location,
          (AnswersAgree settings (.typing context (.var name place))
              (.typing other (.var otherName otherPlace)) ↔
            context.LookupClear name) := by
  refine ⟨fun left right => typeOf_outcomes_agree avoiding, fun expression => ?_,
    fun context other contexts name otherName => variable_answers_agree_iff settings contexts⟩
  obtain ⟨variant, same, distinct⟩ := expression.exists_distinct_variant []
  exact ⟨variant, same, .of_distinct (Question.distinct_first distinct)⟩

/-- An application under binders, written with two sets of names. -/
theorem typing_ignores_names_of_application :
    let settings : Settings := { captureAvoiding := true }
    let apply (type function argument : String) : Term :=
      .lam type (.sort none)
        (.lam function (.pi "_" (.var type none) (.var type none) none)
          (.lam argument (.var type none)
            (.app (.var function none) (.var argument none) none) none) none) none
    OutcomesAgree (fun leftType rightType => leftType.alphaEquivalent [] rightType = true)
      (typeOf settings (apply "A" "f" "x")).outcome
      (typeOf settings (apply "x" "A" "y")).outcome := by
  intro settings apply
  have clear : ∀ {expression : Term}, expression.Distinct [] →
      (Question.first expression).LookupsClear settings :=
    fun distinct => .of_distinct (Question.distinct_first distinct)
  exact (typing_ignores_bound_names settings rfl).1 _ _ (by decide)
    (clear ⟨by decide, by decide, by decide⟩) (clear ⟨by decide, by decide, by decide⟩)

/-- The second binder `A` stands between the type of `x` and the place where `x`
is looked up. -/
theorem shadowed_type_is_captured :
    let settings : Settings := { captureAvoiding := true }
    let shadowing : Term := .lam "A" (.sort none)
      (.lam "x" (.var "A" none) (.lam "A" (.sort none) (.var "x" none) none) none) none
    let renamed : Term := .lam "A" (.sort none)
      (.lam "x" (.var "A" none) (.lam "B" (.sort none) (.var "x" none) none) none) none
    let type (last : String) : Term := .pi "A" (.sort none)
      (.pi "x" (.var "A" none) (.pi last (.sort none) (.var "A" none) none) none) none
    shadowing.alphaEquivalent [] renamed = true ∧
      (typeOf settings shadowing).outcome = .ok (type "A") ∧
      (typeOf settings renamed).outcome = .ok (type "B") ∧
      (type "A").alphaEquivalent [] (type "B") = false := by
  intro settings shadowing renamed type
  have typed : ∀ {expression expressionType : Term}, expression.isTelescope = false →
      expressionType.isNormal = true →
      (synthesize settings (.sort none) expression).outcome = .ok expressionType →
        (typeOf settings expression).outcome = .ok expressionType := by
    intro expression expressionType shaped normal found
    rw [typeOf_other settings shaped, normalType_of_normal found normal]
  refine ⟨by decide, typed rfl rfl ?_, typed rfl rfl ?_, by decide⟩ <;>
  · iterate 3 apply synthesize_lam_of_normal none rfl
    rw [synthesize_var]
    rfl

end TypeInType
