import TypeInType.Program.Basic
import TypeInType.Settings
import TypeInType.Substitution.Avoiding
import TypeInType.Substitution.Naive

/-!
Replacing a variable in every term of a program. The names that steps give are
not binders: a later step of the same name does not stop the replacement. When
capture is avoided, one supply serves the terms in order.
-/

namespace TypeInType

namespace Step

def substitute (step : Step) (name : String) (replacement : Term) : Step :=
  match step with
  | .define defined value place => .define defined (value.substitute name replacement) place
  | .prove claim place =>
      .prove ⟨claim.name, claim.statement.substitute name replacement,
        claim.proof.substitute name replacement⟩ place
  | .express value place => .express (value.substitute name replacement) place

def substituteAvoiding (step : Step) (name : String) (replacement : Term)
    (supply : NameSupply) : Step × NameSupply :=
  match step with
  | .define defined value place =>
      let (value, supply) := value.substituteAvoiding name replacement supply
      (.define defined value place, supply)
  | .prove claim place =>
      let (statement, supply) := claim.statement.substituteAvoiding name replacement supply
      let (proof, supply) := claim.proof.substituteAvoiding name replacement supply
      (.prove ⟨claim.name, statement, proof⟩ place, supply)
  | .express value place =>
      let (value, supply) := value.substituteAvoiding name replacement supply
      (.express value place, supply)

end Step

namespace Program

def substitute (program : Program) (name : String) (replacement : Term) : Program :=
  program.map fun step => step.substitute name replacement

def substituteAvoiding (program : Program) (name : String) (replacement : Term)
    (supply : NameSupply) : Program × NameSupply :=
  match program with
  | [] => ([], supply)
  | step :: rest =>
      let (step, supply) := step.substituteAvoiding name replacement supply
      let (rest, supply) := substituteAvoiding rest name replacement supply
      (step :: rest, supply)

def inline (settings : Settings) (program : Program) (name : String) (value : Term) : Program :=
  if settings.captureAvoiding then (program.substituteAvoiding name value .empty).1
  else program.substitute name value

end Program

end TypeInType
