import TypeInType.Proofs.NormalOrder
import TypeInType.Proofs.Refusals

/-!
Places decide nothing. Every function of the checker gives, on terms without places,
what it gives otherwise with the places removed, be that a value or a diagnosis. So
two inputs that differ in places only cannot be told apart but by the places.
-/

namespace TypeInType

namespace Term

theorem bare_substitute (term : Term) (name : String) (replacement : Term) :
    (term.substitute name replacement).bare = term.bare.substitute name replacement.bare := by
  induction term with
  | sort place => rfl
  | var other place =>
      simp only [substitute, bare]
      split <;> rfl
  | app function argument place functionIH argumentIH =>
      simp only [substitute, bare, functionIH, argumentIH]
  | bind kind bound domain body place domainIH bodyIH =>
      simp only [substitute, bare]
      split
      · rfl
      · simp only [bare, domainIH, bodyIH]

theorem bare_rename (term : Term) (old new : String) :
    (term.rename old new).bare = term.bare.rename old new := by
  induction term with
  | sort place => rfl
  | var name place =>
      simp only [rename, bare]
      split <;> rfl
  | app function argument place functionIH argumentIH =>
      simp only [rename, bare, functionIH, argumentIH]
  | bind kind bound domain body place domainIH bodyIH =>
      simp only [rename, bare, domainIH]
      split
      · rfl
      · rw [bodyIH]

theorem bare_replace (term : Term) (name : String) (replacement : Term) (supply : NameSupply) :
    term.bare.replace name replacement.bare supply =
      ((term.replace name replacement supply).1.bare, (term.replace name replacement supply).2) := by
  fun_induction replace term name replacement supply with
  | case1 supply place => rw [bare, replace]
  | case2 supply other place =>
      rw [bare, replace]
      split <;> rfl
  | case3 supply function argument place newFunction between functionEq newArgument after
      argumentEq functionIH argumentIH =>
      rw [bare, replace, functionIH, functionEq]
      dsimp only
      rw [argumentIH, argumentEq]
      rfl
  | case4 supply kind bound domain body place newDomain after domainEq stops domainIH =>
      rw [bare, replace, domainIH, domainEq]
      dsimp only
      rw [hasFree_bare, if_pos stops]
      rfl
  | case5 supply kind bound domain body place newDomain between domainEq goesOn captures renamed
      afterFresh freshEq newBody after bodyEq domainIH bodyIH =>
      -- Neither whether a binder captures nor its new name depends on places.
      rw [bare, replace, domainIH, domainEq]
      dsimp only
      rw [hasFree_bare, hasFree_bare, if_neg goesOn, if_pos captures, freshEq]
      dsimp only
      rw [← bare_rename, bodyIH, bodyEq]
      rfl
  | case6 supply kind bound domain body place newDomain between domainEq goesOn safe newBody after
      bodyEq domainIH bodyIH =>
      rw [bare, replace, domainIH, domainEq]
      dsimp only
      rw [hasFree_bare, hasFree_bare, if_neg goesOn, if_neg safe]
      rw [bodyIH, bodyEq]
      rfl

theorem bare_substituteAvoiding (term : Term) (name : String) (replacement : Term)
    (supply : NameSupply) :
    term.bare.substituteAvoiding name replacement.bare supply =
      ((term.substituteAvoiding name replacement supply).1.bare,
        (term.substituteAvoiding name replacement supply).2) := by
  simp only [substituteAvoiding, NameSupply.reserveTerm, allNames_bare]
  exact bare_replace ..

theorem bare_lookup? (context : Term) (name : String) :
    context.bare.lookup? name = (context.lookup? name).map bare := by
  induction context with
  | bind kind bound domain rest place _ restIH =>
      cases kind with
      | lambda => rfl
      | pi =>
          simp only [bare, lookup?]
          split
          · rfl
          · exact restIH
  | _ => rfl

theorem isTelescope_bare (term : Term) : term.bare.isTelescope = term.isTelescope := by
  induction term with
  | bind kind name domain body place _ bodyIH =>
      cases kind with
      | lambda => rfl
      | pi => exact bodyIH
  | _ => rfl

theorem isSort_bare (term : Term) : term.bare.isSort = term.isSort := by
  cases term <;> rfl

theorem place_bare (term : Term) : term.bare.place = none := by
  cases term <;> rfl

theorem bare_ne_pi {term : Term}
    (notPi : ∀ name domain body place, term ≠ .pi name domain body place) :
    ∀ name domain body place, term.bare ≠ .pi name domain body place := by
  cases term with
  | bind kind name domain body place =>
      cases kind with
      | lambda => simp [bare]
      | pi => exact absurd rfl (notPi name domain body place)
  | _ => simp [bare]

theorem isLambda_bare (term : Term) : term.bare.isLambda = term.isLambda := by
  cases term with
  | bind kind name domain body place => cases kind <;> rfl
  | _ => rfl

theorem alphaEquivalent_bare (left right : Term) :
    alphaEquivalent [] left.bare right.bare = alphaEquivalent [] left right := by
  -- The comparison is one of nameless readings, which have no places.
  rw [Bool.eq_iff_iff, alphaEquivalent_nil_iff, alphaEquivalent_nil_iff, nameless, nameless,
    namelessUnder_bare, namelessUnder_bare]
  rfl

theorem contractLeftmost_bare (term : Term) (supply : NameSupply) :
    term.bare.contractLeftmost supply =
      (term.contractLeftmost supply).map fun next => (next.1.bare, next.2) := by
  induction term with
  | sort place => rfl
  | var name place => rfl
  | app function argument place functionIH argumentIH =>
      rcases function.lambda_or_not with ⟨name, domain, body, binderPlace, rfl⟩ | notLambda
      · rw [bare, bare, contractLeftmost, contractLeftmost, bare_substituteAvoiding]
        rfl
      · rw [bare, contractLeftmost_app _ _ notLambda,
          contractLeftmost_app _ _ ((isLambda_bare function).trans notLambda), functionIH]
        cases function.contractLeftmost supply with
        | some next => rfl
        | none =>
            rw [argumentIH]
            cases argument.contractLeftmost supply <;> rfl
  | bind kind name domain body place domainIH bodyIH =>
      rw [bare, contractLeftmost, contractLeftmost, domainIH]
      cases domain.contractLeftmost supply with
      | some next => rfl
      | none =>
          rw [bodyIH]
          cases body.contractLeftmost supply <;> rfl

theorem contractLeftmost_bare_none {term : Term} {supply : NameSupply}
    (step : term.contractLeftmost supply = none) : term.bare.contractLeftmost supply = none := by
  rw [contractLeftmost_bare, step]
  rfl

theorem contractLeftmost_bare_some {term : Term} {supply : NameSupply} {next : Term × NameSupply}
    (step : term.contractLeftmost supply = some next) :
    term.bare.contractLeftmost supply = some (next.1.bare, next.2) := by
  rw [contractLeftmost_bare, step]
  rfl

end Term

namespace Stage

def bare (stage : Stage) : Stage :=
  { stage with term := stage.term.bare }

theorem exhaust_bare (budget : Nat) (term : Term) (supply : NameSupply) :
    exhaust Term.contractLeftmost budget term.bare supply =
      (exhaust Term.contractLeftmost budget term supply).map bare := by
  induction budget generalizing term supply with
  | zero =>
      cases step : term.contractLeftmost supply with
      | none => rw [exhaust_none step, exhaust_none (Term.contractLeftmost_bare_none step)]; rfl
      | some next => rw [exhaust_zero step, exhaust_zero (Term.contractLeftmost_bare_some step)]; rfl
  | succ left ih =>
      cases step : term.contractLeftmost supply with
      | none => rw [exhaust_none step, exhaust_none (Term.contractLeftmost_bare_none step)]; rfl
      | some next =>
          rw [exhaust_succ step, exhaust_succ (Term.contractLeftmost_bare_some step)]
          exact ih next.1 next.2

end Stage

def Diagnosis.bare (diagnosis : Diagnosis) : Diagnosis :=
  { diagnosis with place := none }

def withoutPlaces {α : Type} (strip : α → α) : Except Diagnosis α → Except Diagnosis α
  | .ok value => .ok (strip value)
  | .error diagnosis => .error diagnosis.bare

section Outcomes

variable {settings : Settings}

theorem withoutPlaces_bind {α β : Type} {strip : α → α} {stripNext : β → β}
    {first bareFirst : Except Diagnosis α} {next bareNext : α → Except Diagnosis β}
    (same : bareFirst = withoutPlaces strip first)
    (nextSame : ∀ value, bareNext (strip value) = withoutPlaces stripNext (next value)) :
    bareFirst >>= bareNext = withoutPlaces stripNext (first >>= next) := by
  subst same
  cases first with
  | ok value => exact nextSame value
  | error diagnosis => rfl

theorem reduce_bare (settings : Settings) (context term : Term) :
    settings.reduce context.bare term.bare =
      withoutPlaces Term.bare (settings.reduce context term) := by
  -- Both reductions start with the same names reserved.
  have supply : NameSupply.ofTerms [term.bare, context.bare] = .ofTerms [term, context] := by
    simp only [NameSupply.ofTerms, List.foldl_cons, List.foldl_nil, NameSupply.reserveTerm,
      Term.allNames_bare]
  rw [Settings.reduce, Settings.reduce, reduce_eq, reduce_eq, supply, Stage.exhaust_bare,
    Term.text_bare, Term.place_bare]
  cases Stage.exhaust Term.contractLeftmost _ term _ <;> rfl

theorem instantiate_bare (settings : Settings) (body : Term) (name : String) (argument : Term) :
    settings.instantiate body.bare name argument.bare =
      (settings.instantiate body name argument).bare := by
  rw [Settings.instantiate, Settings.instantiate]
  split
  · rw [Term.bare_substituteAvoiding]
  · rw [Term.bare_substitute]

theorem normalType_bare {context expression : Term}
    (same : (synthesize settings context.bare expression.bare).outcome =
      withoutPlaces Term.bare (synthesize settings context expression).outcome) :
    (normalType settings context.bare expression.bare).outcome =
      withoutPlaces Term.bare (normalType settings context expression).outcome := by
  rw [normalType_outcome, normalType_outcome]
  exact withoutPlaces_bind same fun type => reduce_bare settings context type

theorem applicationType_bare (functionType argumentType function argument : Term)
    (place : Option Location) :
    applicationType settings functionType.bare argumentType.bare function.bare argument.bare none =
      withoutPlaces Term.bare
        (applicationType settings functionType argumentType function argument place) := by
  have refused : ∀ type : Term,
      (.error (.of (.notAFunction function.bare.text type.bare.text) none) :
        Except Diagnosis Term) =
        withoutPlaces Term.bare (.error (.of (.notAFunction function.text type.text) place)) := by
    intro type
    rw [Term.text_bare, Term.text_bare]
    rfl
  cases functionType with
  | bind kind name domain body binderPlace =>
      cases kind with
      | lambda => exact refused _
      | pi =>
          simp only [applicationType, Term.bare, Term.alphaEquivalent_bare, Term.text_bare,
            Term.place_bare]
          split
          · rw [instantiate_bare]
            rfl
          · rfl
  | _ => exact refused _

theorem answers_bare (settings : Settings) :
    (∀ context expression, (synthesize settings context.bare expression.bare).outcome =
        withoutPlaces Term.bare (synthesize settings context expression).outcome) ∧
      ∀ context telescope, (checkContext settings context.bare telescope.bare).outcome =
        withoutPlaces id (checkContext settings context telescope).outcome := by
  apply judgements_induction settings
    (fun context expression => (synthesize settings context.bare expression.bare).outcome =
      withoutPlaces Term.bare (synthesize settings context expression).outcome)
    (fun context telescope => (checkContext settings context.bare telescope.bare).outcome =
      withoutPlaces id (checkContext settings context telescope).outcome)
  case sort =>
    intro context place
    rw [Term.bare, synthesize_sort, synthesize_sort]
    rfl
  case var =>
    intro context name place
    rw [Term.bare, synthesize_var, synthesize_var, Term.bare_lookup?]
    cases context.lookup? name <;> rfl
  case app =>
    intro context function argument place functionIH argumentIH
    rw [Term.bare, synthesize_app, synthesize_app]
    refine withoutPlaces_bind (normalType_bare functionIH) fun functionType => ?_
    refine withoutPlaces_bind (normalType_bare argumentIH) fun argumentType => ?_
    exact applicationType_bare ..
  case lam =>
    intro context name domain body place bodyIH
    rw [Term.bare, synthesize_lam, synthesize_lam]
    exact withoutPlaces_bind (normalType_bare bodyIH) fun bodyType => rfl
  case pi =>
    intro context name domain body place bodyIH
    rw [Term.bare, synthesize_pi, synthesize_pi]
    refine withoutPlaces_bind bodyIH fun valid => ?_
    cases valid with
    | true => rfl
    | false =>
        show Except.error
          (Diagnosis.of (.malformedPi (Term.pi name domain body place).bare.text) none) = _
        rw [Term.text_bare]
        rfl
  case empty =>
    intro place other
    rw [Term.bare, Term.bare, checkContext_sort, checkContext_sort]
    rfl
  case lastTelescope =>
    intro bound type rest place other shaped typeIH
    rw [Term.bare, Term.bare, checkContext_last_telescope settings shaped,
      checkContext_last_telescope settings ((Term.isTelescope_bare type).trans shaped)]
    exact typeIH
  case lastType =>
    intro bound type rest place other notShaped typeIH
    rw [Term.bare, Term.bare, checkContext_last_type settings notShaped,
      checkContext_last_type settings ((Term.isTelescope_bare type).trans notShaped)]
    refine withoutPlaces_bind (normalType_bare typeIH) fun sort => ?_
    rw [Term.isSort_bare]
    rfl
  case fallsThrough =>
    intro bound type rest place name domain body other always bodyIH
    rw [checkContext_moves settings (.inl always)]
    rw [Term.bare, Term.bare, checkContext_moves settings (.inl always)]
    exact bodyIH
  case malformed =>
    intro bound type rest place telescope always notSort notPi
    have isNotSort := Term.isSort_of_ne notSort
    rw [checkContext_malformed settings (.inl always) isNotSort notPi,
      checkContext_malformed settings (.inl always) ((Term.isSort_bare telescope).trans isNotSort)
        (Term.bare_ne_pi notPi)]
    rfl
  case unruled =>
    intro bound type rest place telescope strict notSort
    have isNotSort := Term.isSort_of_ne notSort
    have context := Term.text_bare (.pi bound type rest place)
    rw [Term.bare] at context ⊢
    rw [checkContext_ambiguous settings strict _ _ _ isNotSort,
      checkContext_ambiguous settings strict _ _ _
        ((Term.isSort_bare telescope).trans isNotSort), context, Term.text_bare, Term.place_bare]
    rfl
  case moves =>
    intro context name domain body place notPi bodyIH
    rw [checkContext_moves_under settings notPi]
    rw [Term.bare, checkContext_moves_under settings (Term.bare_ne_pi notPi)]
    exact bodyIH
  case shapeless =>
    intro context telescope notPi telescopeNotPi notSorts
    rw [checkContext_shapeless settings notPi telescopeNotPi notSorts,
      checkContext_shapeless settings (Term.bare_ne_pi notPi) (Term.bare_ne_pi telescopeNotPi)
        (by rwa [Term.isSort_bare, Term.isSort_bare])]
    rfl

end Outcomes

/-! Steps and programs. -/

theorem Step.label_bare (step : Step) : step.bare.label = step.label := by
  cases step <;> rfl

theorem Step.label_of_bare {step other : Step} (same : other.bare = step.bare) :
    other.label = step.label := by
  rw [← label_bare, same, label_bare]

theorem Step.text_bare (step : Step) : step.bare.text = step.text := by
  cases step <;> simp only [text, bare, Theorem.text, Theorem.bare, Term.text_bare]

theorem Program.text_bare (program : Program) :
    Program.text (program.map Step.bare) = program.text := by
  rw [text, text, List.map_map]
  congr 1
  apply List.map_congr_left
  exact fun step _ => step.text_bare

theorem Step.bare_substitute (step : Step) (name : String) (replacement : Term) :
    (step.substitute name replacement).bare = step.bare.substitute name replacement.bare := by
  cases step <;>
    simp only [substitute, bare, Theorem.bare, Term.bare_substitute]

theorem Step.bare_substituteAvoiding (step : Step) (name : String) (replacement : Term)
    (supply : NameSupply) :
    step.bare.substituteAvoiding name replacement.bare supply =
      ((step.substituteAvoiding name replacement supply).1.bare,
        (step.substituteAvoiding name replacement supply).2) := by
  cases step <;>
    simp only [substituteAvoiding, bare, Theorem.bare, Term.bare_substituteAvoiding]

theorem Program.bare_substituteAvoiding (program : Program) (name : String) (replacement : Term)
    (supply : NameSupply) :
    Program.substituteAvoiding (program.map Step.bare) name replacement.bare supply =
      ((program.substituteAvoiding name replacement supply).1.map Step.bare,
        (program.substituteAvoiding name replacement supply).2) := by
  induction program generalizing supply with
  | nil => rfl
  | cons step rest ih =>
      simp only [List.map_cons, substituteAvoiding, Step.bare_substituteAvoiding, ih]

theorem Program.bare_inline (settings : Settings) (program : Program) (name : String)
    (value : Term) :
    Program.inline settings (program.map Step.bare) name value.bare =
      (program.inline settings name value).map Step.bare := by
  rw [inline, inline]
  split
  · rw [bare_substituteAvoiding]
  · rw [substitute, substitute, List.map_map, List.map_map]
    apply List.map_congr_left
    intro step _
    exact (step.bare_substitute name value).symm

section Steps

variable (settings : Settings)

theorem typeOf_bare (expression : Term) :
    (typeOf settings expression.bare).outcome =
      withoutPlaces Term.bare (typeOf settings expression).outcome := by
  cases shaped : expression.isTelescope with
  | true =>
      rw [typeOf_telescope settings shaped,
        typeOf_telescope settings ((Term.isTelescope_bare expression).trans shaped)]
      refine withoutPlaces_bind ((answers_bare settings).2 (.sort none) expression) fun valid => ?_
      cases valid with
      | true =>
          rw [Term.place_bare]
          rfl
      | false =>
          rw [Term.place_bare, Term.text_bare]
          rfl
  | false =>
      rw [typeOf_other settings shaped,
        typeOf_other settings ((Term.isTelescope_bare expression).trans shaped)]
      exact normalType_bare ((answers_bare settings).1 (.sort none) expression)

theorem checkStatement_bare (claim : Theorem) :
    (checkStatement settings claim.bare).outcome =
      withoutPlaces (List.map Diagnosis.bare) (checkStatement settings claim).outcome := by
  rw [checkStatement_outcome, checkStatement_outcome, Theorem.bare]
  dsimp only
  rw [typeOf_bare]
  cases (typeOf settings claim.statement).outcome with
  | ok type => rfl
  | error diagnosis =>
      have same : diagnosis.bare.isAmbiguous = diagnosis.isAmbiguous := rfl
      -- An ambiguous statement becomes a warning, so its place is removed there.
      simp only [withoutPlaces, same]
      split <;> rfl

theorem checkProof_bare (claim : Theorem) :
    (checkProof settings claim.bare).outcome =
      withoutPlaces Term.bare (checkProof settings claim).outcome := by
  simp only [checkProof, Checked.outcome_bind, Checked.outcome_silent, Theorem.bare]
  refine withoutPlaces_bind (reduce_bare settings (.sort none) _) fun statement => ?_
  refine withoutPlaces_bind (reduce_bare settings (.sort none) _) fun proof => ?_
  refine withoutPlaces_bind (typeOf_bare settings _) fun proofType => ?_
  rw [Term.alphaEquivalent_bare, Term.text_bare, Term.text_bare, Term.place_bare]
  split <;> rfl

theorem elaborateStep_bare (step : Step) (rest : Program) :
    (elaborateStep settings step.bare (rest.map Step.bare)).outcome =
      withoutPlaces (List.map Step.bare) (elaborateStep settings step rest).outcome := by
  cases step with
  | define name value place =>
      rw [Step.bare, elaborateStep_define, elaborateStep_define]
      refine withoutPlaces_bind (reduce_bare settings (.sort none) value) fun value => ?_
      exact congrArg Except.ok (Program.bare_inline settings rest name value)
  | prove claim place =>
      rw [Step.bare, elaborateStep_prove, elaborateStep_prove]
      refine withoutPlaces_bind (checkStatement_bare settings claim) fun warnings => ?_
      refine withoutPlaces_bind (checkProof_bare settings claim) fun proof => ?_
      exact congrArg Except.ok (Program.bare_inline settings rest claim.name proof)
  | express value place =>
      rw [Step.bare, elaborateStep_express, elaborateStep_express]
      split
      · exact withoutPlaces_bind (typeOf_bare settings value) fun type => rfl
      · rfl

theorem warnings_elaborateStep_bare (step : Step) (rest : Program) :
    (elaborateStep settings step.bare (rest.map Step.bare)).warnings =
      (elaborateStep settings step rest).warnings.map Diagnosis.bare := by
  cases step with
  | define name value place => rw [Step.bare, warnings_define, warnings_define, List.map_nil]
  | prove claim place =>
      rw [Step.bare, warnings_prove, warnings_prove, checkStatement_bare]
      cases (checkStatement settings claim).outcome <;> rfl
  | express value place => rw [Step.bare, warnings_express, warnings_express, List.map_nil]

end Steps

end TypeInType
