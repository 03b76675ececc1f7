import TypeInType.Journal
import TypeInType.Reduction
import TypeInType.Settings
import TypeInType.Substitution.Naive
import TypeInType.Telescope
import TypeInType.Term.Alpha

/-!
The two judgements of the calculus, each resting on the other.

    Γ ⊢ Type => Type
    Γ ⊢ x => A                                 if  x : A in Γ
    Γ ⊢ fun (x : A) => b => forall (x : A), B  if  Γ, x : A ⊢ b => B
    Γ ⊢ f a => B[x := a]                       if  Γ ⊢ f => forall (x : A), B and Γ ⊢ a => A
    Γ ⊢ forall (x : A), B => Type              if  Γ, x : A ⊢ B context

Types are compared in normal form, up to bound names. Whether `Δ` is a context
under `Γ` is decided by the shapes of both: a function type moves its binding
over to `Γ`, and at the end the binding added last must have a type.
-/

namespace TypeInType

namespace Settings

def reduce (settings : Settings) (context term : Term) : Except Diagnosis Term :=
  TypeInType.reduce context term settings.maxReductionSteps

def instantiate (settings : Settings) (body : Term) (name : String) (argument : Term) : Term :=
  if settings.captureAvoiding then (body.substituteAvoiding name argument .empty).1
  else body.substitute name argument

end Settings

mutual

def synthesize (settings : Settings) (context expression : Term) : Checked Term := do
  Checked.note (.synthesizing expression)
  match expression with
  | .sort place => pure (.sort place)
  | .var name place =>
      match context.lookup? name with
      | some type => pure type
      | none => Checked.fail (.of (.unboundVariable name) place)
  | .app function argument place =>
      let functionType ← synthesize settings context function
      let functionType ← Checked.silent (settings.reduce context functionType)
      let argumentType ← synthesize settings context argument
      let argumentType ← Checked.silent (settings.reduce context argumentType)
      match functionType with
      | .pi name domain codomain _ =>
          if Term.alphaEquivalent [] argumentType domain then
            pure (settings.instantiate codomain name argument)
          else
            Checked.fail (.of (.wrongArgument argument.text domain.text argumentType.text)
              (argument.place.or place))
      | _ => Checked.fail (.of (.notAFunction function.text functionType.text) place)
  | .lam name domain body place =>
      let bodyType ← synthesize settings (context.withBinding name domain) body
      let bodyType ← Checked.silent (settings.reduce (context.withBinding name domain) bodyType)
      pure (.pi name domain bodyType place)
  | .pi name domain body place =>
      let valid ← checkContext settings (context.withBinding name domain) body
      if valid then pure (.sort place)
      else Checked.fail (.of (.malformedPi (Term.pi name domain body place).text) place)
termination_by (context.size + expression.size, expression.size)
decreasing_by
  all_goals simp only [Term.size, Term.withBinding, Prod.lex_def]
  all_goals omega

/-- Is a telescope a context under a context that is already known to be one? -/
def checkContext (settings : Settings) (context telescope : Term) : Checked Bool :=
  match context, telescope with
  | .sort _, .sort _ => pure true
  | .pi _ type rest _, .sort _ =>
      if type.isTelescope then checkContext settings rest type
      else do
        let sort ← synthesize settings rest type
        let sort ← Checked.silent (settings.reduce rest sort)
        pure sort.isSort
  | .pi bound type rest place, telescope =>
      if settings.contextFallthrough then
        match telescope with
        | .pi name domain body _ =>
            checkContext settings ((Term.pi bound type rest place).withBinding name domain) body
        | _ => pure false
      else do
        Checked.note (.noContextRule telescope (.pi bound type rest place))
        Checked.fail (.of (.ambiguous (Term.pi bound type rest place).text telescope.text)
          telescope.place)
  | context, .pi name domain body _ => checkContext settings (context.withBinding name domain) body
  | _, _ => pure false
termination_by (context.size + telescope.size, telescope.size)
decreasing_by
  all_goals simp only [Term.size, Term.withBinding, Prod.lex_def]
  all_goals omega

end

def normalType (settings : Settings) (context expression : Term) : Checked Term := do
  let type ← synthesize settings context expression
  Checked.silent (settings.reduce context type)

/-- The type of a closed expression. One that is shaped like a telescope must be
a context, and its type is `Type`. -/
def typeOf (settings : Settings) (expression : Term) : Checked Term :=
  if expression.isTelescope then do
    let valid ← checkContext settings (.sort none) expression
    if valid then pure (.sort expression.place)
    else Checked.fail (.of (.invalidContext expression.text) expression.place)
  else normalType settings (.sort none) expression

end TypeInType
