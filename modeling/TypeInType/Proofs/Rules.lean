import TypeInType.Judgement

/-!
The rules of the two judgements, one for each shape, as equations between
outcomes. What is reported on the way is left out.
-/

namespace TypeInType

theorem Term.isSort_of_ne {term : Term} (notSort : ∀ place, term ≠ .sort place) :
    term.isSort = false := by
  cases term with
  | sort place => exact absurd rfl (notSort place)
  | _ => rfl

theorem Term.not_both_sorts {left right : Term}
    (notBoth : ∀ place other, left = .sort place → right = .sort other → False) :
    ¬(left.isSort = true ∧ right.isSort = true) := by
  cases left with
  | sort place =>
      cases right with
      | sort other => exact (notBoth place other rfl rfl).elim
      | _ => simp [isSort]
  | _ => simp [isSort]

section Rules

variable (settings : Settings)

theorem normalType_outcome (context expression : Term) :
    (normalType settings context expression).outcome =
      (synthesize settings context expression).outcome >>= settings.reduce context := by
  simp only [normalType, Checked.outcome_bind, Checked.outcome_silent]

theorem synthesize_sort (context : Term) (place : Option Location) :
    (synthesize settings context (.sort place)).outcome = .ok (.sort place) := by
  rw [synthesize]
  rfl

theorem synthesize_var (context : Term) (name : String) (place : Option Location) :
    (synthesize settings context (.var name place)).outcome =
      match context.lookup? name with
      | some type => .ok type
      | none => .error (.of (.unboundVariable name) place) := by
  rw [synthesize]
  cases context.lookup? name <;> rfl

def applicationType (functionType argumentType function argument : Term) (place : Option Location) :
    Except Diagnosis Term :=
  match functionType with
  | .pi name domain codomain _ =>
      if Term.alphaEquivalent [] argumentType domain then
        .ok (settings.instantiate codomain name argument)
      else
        .error (.of (.wrongArgument argument.text domain.text argumentType.text)
          (argument.place.or place))
  | _ => .error (.of (.notAFunction function.text functionType.text) place)

theorem synthesize_app (context function argument : Term) (place : Option Location) :
    (synthesize settings context (.app function argument place)).outcome = (do
      let functionType ← (normalType settings context function).outcome
      let argumentType ← (normalType settings context argument).outcome
      applicationType settings functionType argumentType function argument place) := by
  rw [synthesize]
  simp only [Checked.outcome_bind, Checked.outcome_note, Checked.outcome_silent,
    normalType_outcome, bind_assoc]
  show (synthesize settings context function).outcome >>= _ = _
  congr 1
  funext functionType
  congr 1
  funext functionType
  congr 1
  funext argumentType
  congr 1
  funext argumentType
  cases functionType with
  | bind kind name domain codomain place =>
      cases kind with
      | lambda => rfl
      | pi =>
          simp only [applicationType]
          split <;> rfl
  | _ => rfl

theorem synthesize_lam (context : Term) (name : String) (domain body : Term)
    (place : Option Location) :
    (synthesize settings context (.lam name domain body place)).outcome = (do
      let bodyType ← (normalType settings (context.withBinding name domain) body).outcome
      .ok (.pi name domain bodyType place)) := by
  rw [synthesize]
  simp only [Checked.outcome_bind, Checked.outcome_note, Checked.outcome_silent,
    normalType_outcome, bind_assoc]
  rfl

theorem synthesize_pi (context : Term) (name : String) (domain body : Term)
    (place : Option Location) :
    (synthesize settings context (.pi name domain body place)).outcome = (do
      let valid ← (checkContext settings (context.withBinding name domain) body).outcome
      if valid then .ok (.sort place)
      else .error (.of (.malformedPi (Term.pi name domain body place).text) place)) := by
  rw [synthesize]
  simp only [Checked.outcome_bind, Checked.outcome_note]
  show (checkContext settings (context.withBinding name domain) body).outcome >>= _ = _
  congr 1
  funext valid
  cases valid <;> rfl

theorem checkContext_sort (place other : Option Location) :
    (checkContext settings (.sort place) (.sort other)).outcome = .ok true := by
  rw [checkContext]
  rfl

/-! With no binding left to move, the one added last is looked at, and no other. -/

theorem checkContext_last_telescope {type : Term} (shaped : type.isTelescope = true)
    (bound : String) (rest : Term) (place other : Option Location) :
    (checkContext settings (.pi bound type rest place) (.sort other)).outcome =
      (checkContext settings rest type).outcome := by
  rw [checkContext, if_pos shaped]

theorem checkContext_last_type {type : Term} (shaped : type.isTelescope = false)
    (bound : String) (rest : Term) (place other : Option Location) :
    (checkContext settings (.pi bound type rest place) (.sort other)).outcome = (do
      let sort ← (normalType settings rest type).outcome
      .ok sort.isSort) := by
  rw [checkContext, if_neg (Bool.eq_false_iff.mp shaped)]
  simp only [Checked.outcome_bind, Checked.outcome_silent, normalType_outcome, bind_assoc]
  rfl

/-! A binding that is still to be moved. Under a context with a binding in it only
the fallthrough says what to do. -/

theorem checkContext_moves {context : Term}
    (ruled : settings.contextFallthrough = true ∨ context.isSort = true) (name : String)
    (domain body : Term) (place : Option Location) :
    (checkContext settings context (.pi name domain body place)).outcome =
      (checkContext settings (context.withBinding name domain) body).outcome := by
  cases context with
  | bind kind bound type rest place =>
      have always := ruled.resolve_right Bool.false_ne_true
      cases kind with
      | lambda =>
          rw [checkContext]
          all_goals simp
      | pi => rw [checkContext, if_pos always]
  | _ =>
      rw [checkContext]
      all_goals simp

theorem checkContext_unruled (strict : settings.contextFallthrough = false) (bound : String)
    (type rest : Term) {telescope : Term} (notSort : telescope.isSort = false)
    (place : Option Location) :
    checkContext settings (.pi bound type rest place) telescope = (do
      Checked.note (.noContextRule telescope (.pi bound type rest place))
      Checked.fail (.of (.ambiguous (Term.pi bound type rest place).text telescope.text)
        telescope.place)) := by
  rw [checkContext.eq_def]
  cases telescope with
  | sort place => cases notSort
  | _ =>
      simp only [strict]
      rfl

theorem checkContext_ambiguous (strict : settings.contextFallthrough = false) (bound : String)
    (type rest : Term) {telescope : Term} (notSort : telescope.isSort = false)
    (place : Option Location) :
    (checkContext settings (.pi bound type rest place) telescope).outcome =
      .error (.of (.ambiguous (Term.pi bound type rest place).text telescope.text)
        telescope.place) := by
  rw [checkContext_unruled settings strict bound type rest notSort place]
  rfl

theorem checkContext_malformed {context telescope : Term}
    (ruled : settings.contextFallthrough = true ∨ context.isSort = true)
    (notSort : telescope.isSort = false)
    (notPi : ∀ name domain body place, telescope ≠ .pi name domain body place) :
    (checkContext settings context telescope).outcome = .ok false := by
  rw [checkContext.eq_def]
  split
  · cases notSort
  · cases notSort
  · have always := ruled.resolve_right Bool.false_ne_true
    rw [if_pos always]
    split
    · exact absurd rfl (notPi _ _ _ _)
    · rfl
  · exact absurd rfl (notPi _ _ _ _)
  · rfl

/-! Under a term that is no context the rules go by the shape of the telescope alone. -/

theorem checkContext_moves_under {context : Term}
    (notPi : ∀ name domain body place, context ≠ .pi name domain body place) (name : String)
    (domain body : Term) (place : Option Location) :
    (checkContext settings context (.pi name domain body place)).outcome =
      (checkContext settings (context.withBinding name domain) body).outcome := by
  rw [checkContext]
  exact notPi

theorem checkContext_nowhere {context telescope : Term}
    (notPi : ∀ name domain body place, context ≠ .pi name domain body place)
    (telescopeNotPi : ∀ name domain body place, telescope ≠ .pi name domain body place)
    (notBoth : ¬(context.isSort = true ∧ telescope.isSort = true)) :
    checkContext settings context telescope = pure false := by
  rw [checkContext]
  · exact notPi
  · exact telescopeNotPi
  · rintro place other rfl rfl
    exact notBoth ⟨rfl, rfl⟩
  · rintro name type rest place _ rfl _
    exact notPi _ _ _ _ rfl

theorem checkContext_shapeless {context telescope : Term}
    (notPi : ∀ name domain body place, context ≠ .pi name domain body place)
    (telescopeNotPi : ∀ name domain body place, telescope ≠ .pi name domain body place)
    (notBoth : ¬(context.isSort = true ∧ telescope.isSort = true)) :
    (checkContext settings context telescope).outcome = .ok false := by
  rw [checkContext_nowhere settings notPi telescopeNotPi notBoth]
  rfl

theorem typeOf_telescope {expression : Term} (shaped : expression.isTelescope = true) :
    (typeOf settings expression).outcome = (do
      let valid ← (checkContext settings (.sort none) expression).outcome
      if valid then .ok (.sort expression.place)
      else .error (.of (.invalidContext expression.text) expression.place)) := by
  rw [typeOf, if_pos shaped, Checked.outcome_bind]
  congr 1
  funext valid
  cases valid <;> rfl

theorem typeOf_other {expression : Term} (shaped : expression.isTelescope = false) :
    (typeOf settings expression).outcome =
      (normalType settings (.sort none) expression).outcome := by
  rw [typeOf, shaped]
  rfl

/-- Both judgements by induction, with a case for each rule: what holds of the questions that a
rule asks holds of the one it answers. -/
theorem judgements_induction (typing isContext : Term → Term → Prop)
    (sort : ∀ context place, typing context (.sort place))
    (var : ∀ context name place, typing context (.var name place))
    (app : ∀ context function argument place, typing context function → typing context argument →
      typing context (.app function argument place))
    (lam : ∀ context name domain body place, typing (context.withBinding name domain) body →
      typing context (.lam name domain body place))
    (pi : ∀ context name domain body place, isContext (context.withBinding name domain) body →
      typing context (.pi name domain body place))
    (empty : ∀ place other, isContext (.sort place) (.sort other))
    (lastTelescope : ∀ bound type rest place other, type.isTelescope = true →
      isContext rest type → isContext (.pi bound type rest place) (.sort other))
    (lastType : ∀ bound type rest place other, type.isTelescope = false →
      typing rest type → isContext (.pi bound type rest place) (.sort other))
    (fallsThrough : ∀ bound type rest place name domain body other,
      settings.contextFallthrough = true →
        isContext ((Term.pi bound type rest place).withBinding name domain) body →
          isContext (.pi bound type rest place) (.pi name domain body other))
    (malformed : ∀ bound type rest place telescope, settings.contextFallthrough = true →
      (∀ other, telescope ≠ .sort other) →
        (∀ name domain body other, telescope ≠ .pi name domain body other) →
          isContext (.pi bound type rest place) telescope)
    (unruled : ∀ bound type rest place telescope, settings.contextFallthrough = false →
      (∀ other, telescope ≠ .sort other) → isContext (.pi bound type rest place) telescope)
    (moves : ∀ context name domain body place,
      (∀ bound type rest place, context ≠ .pi bound type rest place) →
        isContext (context.withBinding name domain) body →
          isContext context (.pi name domain body place))
    (shapeless : ∀ context telescope,
      (∀ bound type rest place, context ≠ .pi bound type rest place) →
        (∀ name domain body place, telescope ≠ .pi name domain body place) →
          ¬(context.isSort = true ∧ telescope.isSort = true) → isContext context telescope) :
    (∀ context expression, typing context expression) ∧
      ∀ context telescope, isContext context telescope := by
  apply synthesize.mutual_induct settings typing isContext
  case case1 =>
    intro context expression below
    cases expression with
    | sort place => exact sort context place
    | var name place => exact var context name place
    | app function argument place => exact app context function argument place below.1 below.2
    | bind kind name domain body place =>
        cases kind with
        | lambda => exact lam context name domain body place below
        | pi => exact pi context name domain body place below
  case case2 => exact empty
  case case3 => exact lastTelescope
  case case4 =>
    intro bound type rest place other shaped below
    exact lastType bound type rest place other (Bool.eq_false_iff.mpr shaped) below
  case case5 =>
    intro bound type rest place always name domain body other _ below
    exact fallsThrough bound type rest place name domain body other always below
  case case6 =>
    intro bound type rest place telescope notSort always notPi
    exact malformed bound type rest place telescope always notSort notPi
  case case7 =>
    intro bound type rest place telescope notSort strict
    exact unruled bound type rest place telescope (Bool.eq_false_iff.mpr strict) notSort
  case case8 =>
    intro context name domain body place notPi below
    exact moves context name domain body place notPi below
  case case9 =>
    intro context telescope notPi telescopeNotPi notBoth _
    exact shapeless context telescope notPi telescopeNotPi (Term.not_both_sorts notBoth)

end Rules

inductive Question where
  | typing (context expression : Term)
  | isContext (context telescope : Term)

namespace Question

/-- The questions that are asked to answer a question. Only where the function of
an application has a normal type is its argument looked at. -/
inductive RestsOn (settings : Settings) : Question → Question → Prop
  | function (context function argument : Term) (place : Option Location) :
      RestsOn settings (.typing context (.app function argument place)) (.typing context function)
  | argument {context function functionType : Term} (argument : Term) (place : Option Location) :
      (normalType settings context function).outcome = .ok functionType →
        RestsOn settings (.typing context (.app function argument place)) (.typing context argument)
  | body (context : Term) (name : String) (domain body : Term) (place : Option Location) :
      RestsOn settings (.typing context (.lam name domain body place))
        (.typing (context.withBinding name domain) body)
  | codomain (context : Term) (name : String) (domain body : Term) (place : Option Location) :
      RestsOn settings (.typing context (.pi name domain body place))
        (.isContext (context.withBinding name domain) body)
  | moved {context : Term} (name : String) (domain body : Term) (place : Option Location) :
      settings.contextFallthrough = true ∨ context.isSort = true →
        RestsOn settings (.isContext context (.pi name domain body place))
          (.isContext (context.withBinding name domain) body)
  | lastTelescope {type : Term} (bound : String) (rest : Term) (place other : Option Location) :
      type.isTelescope = true →
        RestsOn settings (.isContext (.pi bound type rest place) (.sort other))
          (.isContext rest type)
  | lastType {type : Term} (bound : String) (rest : Term) (place other : Option Location) :
      type.isTelescope = false →
        RestsOn settings (.isContext (.pi bound type rest place) (.sort other)) (.typing rest type)

def first (expression : Term) : Question :=
  if expression.isTelescope then .isContext (.sort none) expression
  else .typing (.sort none) expression

def extent : Question → Nat × Nat
  | .typing context expression => (context.size + expression.size, expression.size)
  | .isContext context telescope => (context.size + telescope.size, telescope.size)

theorem RestsOn.smaller {settings : Settings} {question next : Question}
    (step : RestsOn settings question next) :
    Prod.Lex (· < ·) (· < ·) next.extent question.extent := by
  cases step <;> simp only [extent, Term.size, Term.withBinding, Prod.lex_def] <;> omega

theorem wellFounded_restsOn (settings : Settings) :
    WellFounded fun next question => RestsOn settings question next :=
  Subrelation.wf RestsOn.smaller (InvImage.wf extent (Prod.lex Nat.lt_wfRel Nat.lt_wfRel).wf)

end Question

end TypeInType
