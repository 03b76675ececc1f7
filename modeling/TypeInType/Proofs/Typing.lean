import TypeInType.Proofs.BoundNames
import TypeInType.Proofs.Preservation

/-!
What the checker answers, read without bound names. As long as nothing is captured
on the way, an expression gets a type that it has, and an expression that has a
type gets one: it is refused only where the context rules do not accept a function
type or the budget of a reduction is spent.
-/

namespace TypeInType

namespace Term

def bindingTypes : Term → List Nameless
  | .pi _ type rest _ => type.namelessUnder rest.boundNames :: rest.bindingTypes
  | _ => []

theorem typeAt_of_lookup? {context : Term} {name : String} {type : Term}
    (found : context.lookup? name = some type) :
    ∃ depth, position context.boundNames name = .bound depth ∧
      Nameless.typeAt context.bindingTypes depth =
        some (Nameless.shift^[(context.boundSince name).length]
          (type.namelessUnder (context.boundBefore name))) := by
  fun_induction lookup? context name with
  | case1 domain rest place bound =>
      obtain rfl := Option.some.inj found
      refine ⟨0, position_cons_self bound rest.boundNames, ?_⟩
      simp only [bindingTypes, Nameless.typeAt, boundSince, boundBefore, if_true,
        List.length_singleton, Function.iterate_one]
  | case2 name bound domain rest place differ ih =>
      obtain ⟨depth, stands, bindsType⟩ := ih found
      refine ⟨depth + 1, ?_, ?_⟩
      · rw [boundNames, position_cons_of_ne (Ne.symm differ), stands]
        rfl
      · simp only [bindingTypes, Nameless.typeAt, boundSince, boundBefore, differ, if_false,
          bindsType, Option.map_some, List.length_cons, Function.iterate_succ_apply']
  | case3 => cases found

theorem hasType_of_lookup? {context : Term} {name : String} {type : Term}
    (found : context.lookup? name = some type) (clear : context.LookupClear name)
    (place : Option Location) :
    Nameless.HasType context.bindingTypes ((Term.var name place).namelessUnder context.boundNames)
      (type.namelessUnder context.boundNames) := by
  obtain ⟨depth, stands, bindsType⟩ := typeAt_of_lookup? found
  have reads : (Term.var name place).namelessUnder context.boundNames = .bound depth := stands
  rw [reads, (lookupClear_iff found).mp clear]
  exact .bound bindsType

theorem exists_lookup?_of_hasType {context : Term} {name : String} {place : Option Location}
    {type : Nameless}
    (hasType : Nameless.HasType context.bindingTypes
      ((Term.var name place).namelessUnder context.boundNames) type) :
    ∃ looked, context.lookup? name = some looked := by
  apply Option.isSome_iff_exists.mp
  rw [isSome_lookup?_iff]
  by_contra unbound
  have free : (Term.var name place).namelessUnder context.boundNames = .free name := by
    rw [namelessUnder, (depth?_eq_none_iff context.boundNames name).mpr unbound]
  rw [free] at hasType
  cases hasType

end Term

/-- A computation gives a result, or it is only for want of budget that it does not. -/
def AnsweredOrSpent {α : Type} (outcome : Except Diagnosis α) : Prop :=
  (∃ answer, outcome = .ok answer) ∨
    ∃ diagnosis, outcome = .error diagnosis ∧ diagnosis.cause.kind = "non_normalizing"

namespace AnsweredOrSpent

variable {α β : Type}

theorem ok (answer : α) : AnsweredOrSpent (.ok answer) :=
  .inl ⟨answer, rfl⟩

theorem bind {first : Except Diagnosis α} {next : α → Except Diagnosis β}
    (starts : AnsweredOrSpent first)
    (continues : ∀ answer, first = .ok answer → AnsweredOrSpent (next answer)) :
    AnsweredOrSpent (first >>= next) := by
  rcases starts with ⟨answer, rfl⟩ | ⟨diagnosis, rfl, spent⟩
  · exact continues answer rfl
  · exact .inr ⟨diagnosis, rfl, spent⟩

theorem reduce (settings : Settings) (context term : Term) :
    AnsweredOrSpent (settings.reduce context term) := by
  rcases reduce_ok_or_error context term settings.maxReductionSteps with returned | failed
  · exact .inl returned
  · exact .inr ⟨_, failed, rfl⟩

end AnsweredOrSpent

theorem convertible_of_reduce {settings : Settings} {context term result : Term}
    (returned : settings.reduce context term = .ok result) (binders : List String) :
    Nameless.Convertible (term.namelessUnder binders) (result.namelessUnder binders) ∧
      (result.namelessUnder binders).isNormal = true := by
  obtain ⟨count, _, sequence, isNormal⟩ :=
    (reduce_ok_iff context term settings.maxReductionSteps binders _).mp ⟨result, returned, rfl⟩
  exact ⟨Nameless.convertible_of_afterLeftmost sequence, isNormal⟩

namespace Question

/-- No function type that is instantiated on the way to the answer captures a name
of the argument. -/
def InstancesClear (settings : Settings) (question : Question) : Prop :=
  ∀ context function argument place name domain codomain typePlace,
    Relation.ReflTransGen (RestsOn settings) question
      (.typing context (.app function argument place)) →
      (normalType settings context function).outcome = .ok (.pi name domain codomain typePlace) →
        (settings.instantiate codomain name argument).nameless =
          (codomain.substituteAvoiding name argument .empty).1.nameless

structure NothingCaptured (settings : Settings) (question : Question) : Prop where
  lookups : question.LookupsClear settings
  instances : question.InstancesClear settings

/-- Every function type whose type is asked for on the way to the answer has one. -/
def FunctionTypesAccepted (settings : Settings) (question : Question) : Prop :=
  ∀ context name domain body place,
    Relation.ReflTransGen (RestsOn settings) question
      (.typing context (.pi name domain body place)) →
      ∃ type, (synthesize settings context (.pi name domain body place)).outcome = .ok type

variable {settings : Settings} {question next : Question}

theorem NothingCaptured.after (clear : question.NothingCaptured settings)
    (step : RestsOn settings question next) : next.NothingCaptured settings where
  lookups := clear.lookups.after step
  instances _ _ _ _ _ _ _ _ reaches := clear.instances _ _ _ _ _ _ _ _ (.head step reaches)

theorem NothingCaptured.instantiates {context function argument : Term}
    {place : Option Location}
    (clear : (Question.typing context (.app function argument place)).NothingCaptured settings)
    {name : String} {domain codomain : Term} {typePlace : Option Location}
    (typed : (normalType settings context function).outcome =
      .ok (.pi name domain codomain typePlace)) (binders : List String) :
    (settings.instantiate codomain name argument).namelessUnder binders =
      (codomain.namelessUnder (name :: binders)).instantiate
        (argument.namelessUnder binders) := by
  have same := clear.instances _ _ _ _ _ _ _ _ .refl typed
  rw [← Term.namelessUnder_substituteAvoiding codomain name argument .empty binders,
    Term.namelessUnder_eq_iff]
  exact same

theorem FunctionTypesAccepted.after (accepted : question.FunctionTypesAccepted settings)
    (step : RestsOn settings question next) : next.FunctionTypesAccepted settings :=
  fun _ _ _ _ _ reaches => accepted _ _ _ _ _ (.head step reaches)

theorem NothingCaptured.of_avoiding (avoiding : settings.captureAvoiding = true)
    (lookups : question.LookupsClear settings) : question.NothingCaptured settings where
  lookups := lookups
  instances _ _ _ _ _ _ _ _ _ _ := by rw [Settings.instantiate, if_pos avoiding]

end Question

abbrev HasTypeUnder (context expression type : Term) : Prop :=
  Nameless.HasTypeLike context.bindingTypes (expression.namelessUnder context.boundNames)
    (type.namelessUnder context.boundNames)

section Soundness

variable {settings : Settings} {context : Term}

theorem hasType_of_normalType {expression type : Term}
    (sound : ∀ type, (synthesize settings context expression).outcome = .ok type →
      HasTypeUnder context expression type)
    (typed : (normalType settings context expression).outcome = .ok type) :
    HasTypeUnder context expression type ∧
      (type.namelessUnder context.boundNames).isNormal = true := by
  rw [normalType_outcome, bind_eq_ok_iff] at typed
  obtain ⟨synthesized, found, returned⟩ := typed
  obtain ⟨convertible, isNormal⟩ := convertible_of_reduce returned context.boundNames
  exact ⟨(sound synthesized found).convert convertible, isNormal⟩

theorem applicationType_ok {functionType argumentType function argument type : Term}
    {place : Option Location}
    (applied : applicationType settings functionType argumentType function argument place =
      .ok type) :
    ∃ name domain codomain typePlace, functionType = .pi name domain codomain typePlace ∧
      argumentType.nameless = domain.nameless ∧
        type = settings.instantiate codomain name argument := by
  unfold applicationType at applied
  split at applied
  · rename_i name domain codomain typePlace
    split at applied
    · rename_i sameType
      obtain rfl := Except.ok.inj applied
      exact ⟨name, domain, codomain, typePlace, rfl,
        (Term.alphaEquivalent_nil_iff _ _).mp sameType, rfl⟩
    · cases applied
  · cases applied

/-- An expression has the type it gets. -/
theorem hasType_of_synthesize {expression type : Term}
    (clear : (Question.typing context expression).NothingCaptured settings)
    (typed : (synthesize settings context expression).outcome = .ok type) :
    HasTypeUnder context expression type := by
  induction expression generalizing context type with
  | sort place =>
      rw [synthesize_sort] at typed
      obtain rfl := Except.ok.inj typed
      exact ⟨.sort, .sort _, .refl .sort⟩
  | var name place =>
      rw [synthesize_var] at typed
      cases found : context.lookup? name with
      | none =>
          rw [found] at typed
          cases typed
      | some looked =>
          rw [found] at typed
          obtain rfl := Except.ok.inj typed
          exact ⟨_, Term.hasType_of_lookup? found clear.lookups.here place, .refl _⟩
  | app function argument place functionIH argumentIH =>
      rw [synthesize_app, bind_eq_ok_iff] at typed
      obtain ⟨functionType, functionTyped, typed⟩ := typed
      rw [bind_eq_ok_iff] at typed
      obtain ⟨argumentType, argumentTyped, applied⟩ := typed
      obtain ⟨name, domain, codomain, typePlace, rfl, sameType, rfl⟩ := applicationType_ok applied
      have functionHas := (hasType_of_normalType
        (fun _ => functionIH (clear.after (.function ..))) functionTyped).1
      have argumentHas := (hasType_of_normalType
        (fun _ => argumentIH (clear.after (.argument _ _ functionTyped))) argumentTyped).1
      -- The two types agree up to bound names, so without bound names they are one.
      have domains : argumentType.namelessUnder context.boundNames =
          domain.namelessUnder context.boundNames :=
        (Term.namelessUnder_eq_iff _ _ _).mpr sameType
      rw [HasTypeUnder, domains] at argumentHas
      rw [HasTypeUnder, clear.instantiates functionTyped]
      exact ⟨_, functionHas.app argumentHas, .refl _⟩
  | bind kind name domain body place _ bodyIH =>
      cases kind with
      | lambda =>
          rw [synthesize_lam, bind_eq_ok_iff] at typed
          obtain ⟨bodyType, bodyTyped, made⟩ := typed
          obtain rfl := Except.ok.inj made
          obtain ⟨other, hasOther, like⟩ := (hasType_of_normalType
            (fun _ => bodyIH (clear.after (.body ..))) bodyTyped).1
          exact ⟨_, .lam hasOther, .bind .pi (.refl _) like⟩
      | pi =>
          rw [synthesize_pi, bind_eq_ok_iff] at typed
          obtain ⟨valid, _, made⟩ := typed
          cases valid with
          | false => cases made
          | true =>
              obtain rfl := Except.ok.inj made
              exact ⟨.sort, .pi _ _ _, .refl .sort⟩

end Soundness

section Completeness

variable {settings : Settings} {context : Term}

theorem applicationType_answered {functionType argumentType function argument : Term}
    {place : Option Location} {domain codomain : Nameless}
    (functionConvertible : Nameless.Convertible (.bind .pi domain codomain)
      (functionType.namelessUnder context.boundNames))
    (functionNormal : (functionType.namelessUnder context.boundNames).isNormal = true)
    (argumentConvertible : Nameless.Convertible domain
      (argumentType.namelessUnder context.boundNames))
    (argumentNormal : (argumentType.namelessUnder context.boundNames).isNormal = true) :
    ∃ type, applicationType settings functionType argumentType function argument place =
      .ok type := by
  obtain ⟨normalDomain, normalCodomain, shape⟩ :=
    Nameless.bind_of_convertible_normal functionConvertible functionNormal
  rw [shape] at functionConvertible functionNormal
  obtain ⟨_, domains, _⟩ := functionConvertible.bind_injective
  rw [Nameless.isNormal, Bool.and_eq_true] at functionNormal
  have sameDomain : argumentType.namelessUnder context.boundNames = normalDomain :=
    Nameless.eq_of_convertible_normal (argumentConvertible.symm.trans domains) argumentNormal
      functionNormal.1
  cases functionType with
  | bind kind name domain codomain typePlace =>
      rw [Term.namelessUnder, Nameless.bind.injEq] at shape
      obtain ⟨rfl, rfl, rfl⟩ := shape
      have same : Term.alphaEquivalent [] argumentType domain = true :=
        (Term.alphaEquivalent_nil_iff _ _).mpr ((Term.namelessUnder_eq_iff _ _ _).mp sameDomain)
      exact ⟨_, if_pos same⟩
  | var name typePlace =>
      rcases Term.position_shape context.boundNames name with ⟨depth, bound⟩ | free
      · have reads := bound.symm.trans shape
        cases reads
      · have reads := free.symm.trans shape
        cases reads
  | sort => cases shape
  | app => cases shape

theorem normalType_answered {expression : Term}
    (answered : AnsweredOrSpent (synthesize settings context expression).outcome) :
    AnsweredOrSpent (normalType settings context expression).outcome := by
  rw [normalType_outcome]
  exact answered.bind fun _ _ => .reduce settings context _

theorem normalType_convertible {expression type : Term} {has : Nameless}
    (clear : (Question.typing context expression).NothingCaptured settings)
    (hasType : Nameless.HasType context.bindingTypes
      (expression.namelessUnder context.boundNames) has)
    (typed : (normalType settings context expression).outcome = .ok type) :
    Nameless.Convertible has (type.namelessUnder context.boundNames) ∧
      (type.namelessUnder context.boundNames).isNormal = true := by
  obtain ⟨⟨other, hasOther, like⟩, isNormal⟩ :=
    hasType_of_normalType (fun _ => hasType_of_synthesize clear) typed
  exact ⟨(hasType.unique hasOther).trans like, isNormal⟩

/-- An expression that has a type gets one, where the context rules accept its
function types and the budget lasts. -/
theorem synthesize_answered {expression : Term} {type : Nameless}
    (clear : (Question.typing context expression).NothingCaptured settings)
    (accepted : (Question.typing context expression).FunctionTypesAccepted settings)
    (hasType : Nameless.HasType context.bindingTypes
      (expression.namelessUnder context.boundNames) type) :
    AnsweredOrSpent (synthesize settings context expression).outcome := by
  induction expression generalizing context type with
  | sort place =>
      rw [synthesize_sort]
      exact .ok _
  | var name place =>
      obtain ⟨looked, found⟩ := Term.exists_lookup?_of_hasType hasType
      rw [synthesize_var, found]
      exact .ok looked
  | app function argument place functionIH argumentIH =>
      rw [Term.namelessUnder] at hasType
      cases hasType with
      | app hasFunctionType likePi hasArgumentType likeDomain =>
          rw [synthesize_app]
          have functionClear := clear.after (.function ..)
          have functionAnswered := normalType_answered
            (functionIH functionClear (accepted.after (.function ..)) hasFunctionType)
          apply functionAnswered.bind
          intro functionType functionTyped
          have argumentClear := clear.after (.argument argument place functionTyped)
          have argumentAnswered := normalType_answered
            (argumentIH argumentClear (accepted.after (.argument argument place functionTyped))
              hasArgumentType)
          apply argumentAnswered.bind
          intro argumentType argumentTyped
          -- Both types are normal forms, so they fit as soon as they are convertible.
          obtain ⟨functionConvertible, functionNormal⟩ :=
            normalType_convertible functionClear hasFunctionType functionTyped
          obtain ⟨argumentConvertible, argumentNormal⟩ :=
            normalType_convertible argumentClear hasArgumentType argumentTyped
          exact .inl (applicationType_answered (likePi.symm.trans functionConvertible)
            functionNormal (likeDomain.symm.trans argumentConvertible) argumentNormal)
  | bind kind name domain body place _ bodyIH =>
      cases kind with
      | lambda =>
          rw [Term.namelessUnder] at hasType
          cases hasType with
          | lam hasBodyType =>
              rw [synthesize_lam]
              have bodyAnswered := normalType_answered
                (@bodyIH (context.withBinding name domain) _ (clear.after (.body ..))
                  (accepted.after (.body ..)) hasBodyType)
              apply bodyAnswered.bind
              intro bodyType _
              exact .ok _
      | pi => exact .inl (accepted _ _ _ _ _ .refl)

end Completeness

end TypeInType
