import TypeInType.Proofs.ContextRules

/-!
The judgements as derivations. An expression gets a type by the one rule for its shape,
and a telescope is accepted by the one rule for its shape and that of the context, from
the answers that the rule rests on.
-/

namespace TypeInType

open Term

inductive TypedBy (settings : Settings) (context : Term) : Term → Term → Prop
  | sort (place : Option Location) : TypedBy settings context (.sort place) (.sort place)
  | var {name : String} {type : Term} (place : Option Location) :
      context.lookup? name = some type → TypedBy settings context (.var name place) type
  | app {function argument argumentType domain codomain : Term} {name : String}
      {typePlace : Option Location} (place : Option Location) :
      (normalType settings context function).outcome = .ok (.pi name domain codomain typePlace) →
        (normalType settings context argument).outcome = .ok argumentType →
          argumentType.nameless = domain.nameless →
            TypedBy settings context (.app function argument place)
              (settings.instantiate codomain name argument)
  | lam {name : String} {domain body bodyType : Term} (place : Option Location) :
      (normalType settings (context.withBinding name domain) body).outcome = .ok bodyType →
        TypedBy settings context (.lam name domain body place) (.pi name domain bodyType place)
  | pi {name : String} {domain body : Term} (place : Option Location) :
      (checkContext settings (context.withBinding name domain) body).outcome = .ok true →
        TypedBy settings context (.pi name domain body place) (.sort place)

/-- How a telescope is accepted. A binding is moved over to a context that has bindings
only with the fallthrough. -/
inductive AcceptedBy (settings : Settings) : Term → Term → Prop
  | empty (place other : Option Location) : AcceptedBy settings (.sort place) (.sort other)
  | last {bound : String} {type rest : Term} (place other : Option Location) :
      IsTypeUnder settings rest type → AcceptedBy settings (.pi bound type rest place) (.sort other)
  | moved {context : Term} {name : String} {domain body : Term} (place : Option Location) :
      (settings.contextFallthrough = true ∨
        ∀ bound type rest place, context ≠ .pi bound type rest place) →
        (checkContext settings (context.withBinding name domain) body).outcome = .ok true →
          AcceptedBy settings context (.pi name domain body place)

theorem Term.pi_or_not (term : Term) :
    (∃ name domain body place, term = .pi name domain body place) ∨
      ∀ name domain body place, term ≠ .pi name domain body place := by
  cases term with
  | bind kind name domain body place =>
      cases kind with
      | lambda => exact .inr (by simp)
      | pi => exact .inl ⟨name, domain, body, place, rfl⟩
  | _ => exact .inr (by simp)

section Rules

variable {settings : Settings} {context : Term}

theorem normalType_ok_iff (expression type : Term) :
    (normalType settings context expression).outcome = .ok type ↔
      ∃ synthesized, (synthesize settings context expression).outcome = .ok synthesized ∧
        settings.reduce context synthesized = .ok type := by
  rw [normalType_outcome, bind_eq_ok_iff]

theorem synthesize_ok_iff (expression type : Term) :
    (synthesize settings context expression).outcome = .ok type ↔
      TypedBy settings context expression type := by
  constructor
  · intro typed
    cases expression with
    | sort place =>
        rw [synthesize_sort] at typed
        obtain rfl := Except.ok.inj typed
        exact .sort place
    | var name place =>
        rw [synthesize_var] at typed
        cases found : context.lookup? name with
        | none =>
            rw [found] at typed
            cases typed
        | some looked =>
            rw [found] at typed
            obtain rfl := Except.ok.inj typed
            exact .var place found
    | app function argument place =>
        rw [synthesize_app, bind_eq_ok_iff] at typed
        obtain ⟨functionType, functionTyped, typed⟩ := typed
        rw [bind_eq_ok_iff] at typed
        obtain ⟨argumentType, argumentTyped, applied⟩ := typed
        obtain ⟨name, domain, codomain, typePlace, rfl, sameType, rfl⟩ := applicationType_ok applied
        exact .app place functionTyped argumentTyped sameType
    | bind kind name domain body place =>
        cases kind with
        | lambda =>
            rw [synthesize_lam, bind_eq_ok_iff] at typed
            obtain ⟨bodyType, bodyTyped, made⟩ := typed
            obtain rfl := Except.ok.inj made
            exact .lam place bodyTyped
        | pi =>
            rw [synthesize_pi, bind_eq_ok_iff] at typed
            obtain ⟨valid, accepted, made⟩ := typed
            cases valid with
            | true =>
                obtain rfl := Except.ok.inj made
                exact .pi place accepted
            | false => cases made
  · intro derived
    cases derived with
    | sort place => exact synthesize_sort settings context place
    | var place found => rw [synthesize_var, found]
    | @app _ _ _ domain _ name _ place functionTyped argumentTyped sameType =>
        rw [synthesize_app, functionTyped, argumentTyped]
        exact if_pos ((alphaEquivalent_nil_iff _ domain).mpr sameType)
    | lam place bodyTyped =>
        rw [synthesize_lam, bodyTyped]
        rfl
    | pi place accepted =>
        rw [synthesize_pi, accepted]
        rfl

theorem not_accepted {telescope : Term} (notSort : telescope.isSort = false)
    (telescopeNotPi : ∀ name domain body place, telescope ≠ .pi name domain body place) :
    (checkContext settings context telescope).outcome ≠ .ok true := by
  intro accepted
  rcases context.pi_or_not with ⟨bound, type, rest, place, rfl⟩ | notPi
  · cases always : settings.contextFallthrough with
    | true =>
        rw [checkContext_malformed settings (.inl always) notSort telescopeNotPi] at accepted
        cases accepted
    | false =>
        rw [checkContext_ambiguous settings always _ _ _ notSort] at accepted
        cases accepted
  · have notBoth : ¬(context.isSort = true ∧ telescope.isSort = true) := by simp [notSort]
    rw [checkContext_shapeless settings notPi telescopeNotPi notBoth] at accepted
    cases accepted

theorem acceptedBy_of_sort {place : Option Location}
    (accepted : (checkContext settings context (.sort place)).outcome = .ok true) :
    AcceptedBy settings context (.sort place) := by
  rcases context.pi_or_not with ⟨bound, type, rest, place, rfl⟩ | notPi
  · exact .last _ _ ((checkContext_last_iff ..).mp accepted)
  · cases isSort : context.isSort with
    | true =>
        obtain ⟨other, rfl⟩ := (isSort_iff context).mp isSort
        exact .empty other place
    | false =>
        rw [checkContext_shapeless settings notPi (by simp) (by simp [isSort])] at accepted
        cases accepted

theorem acceptedBy_of_pi {name : String} {domain body : Term} {place : Option Location}
    (accepted : (checkContext settings context (.pi name domain body place)).outcome = .ok true) :
    AcceptedBy settings context (.pi name domain body place) := by
  rcases context.pi_or_not with ⟨bound, type, rest, otherPlace, rfl⟩ | notPi
  · cases always : settings.contextFallthrough with
    | true =>
        rw [checkContext_moves settings (.inl always)] at accepted
        exact .moved place (.inl always) accepted
    | false =>
        rw [checkContext_ambiguous settings always _ _ _ rfl] at accepted
        cases accepted
  · rw [checkContext_moves_under settings notPi] at accepted
    exact .moved place (.inr notPi) accepted

theorem checkContext_ok_iff (telescope : Term) :
    (checkContext settings context telescope).outcome = .ok true ↔
      AcceptedBy settings context telescope := by
  constructor
  · intro accepted
    cases telescope with
    | sort place => exact acceptedBy_of_sort accepted
    | var name place => exact absurd accepted (not_accepted rfl (by simp))
    | app function argument place => exact absurd accepted (not_accepted rfl (by simp))
    | bind kind name domain body place =>
        cases kind with
        | lambda => exact absurd accepted (not_accepted rfl (by simp))
        | pi => exact acceptedBy_of_pi accepted
  · intro derived
    cases derived with
    | empty place other => exact checkContext_sort settings place other
    | last place other isType => exact (checkContext_last_iff ..).mpr isType
    | moved place ruled accepted =>
        rcases ruled with always | notPi
        · rwa [checkContext_moves settings (.inl always)]
        · rwa [checkContext_moves_under settings notPi]

end Rules

end TypeInType
