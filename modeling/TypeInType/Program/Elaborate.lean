import TypeInType.Judgement
import TypeInType.Program.Inline

/-!
Elaborating one step. Definitions and theorems are not remembered: the normal
form of the value or of the proof is put in place of the name in all that
follows. A theorem's statement must be a type, except that a context question
without a rule only gives a warning.
-/

namespace TypeInType

/-- What elaborating a step gives: the steps that remain or a diagnosis, and
in either case what was reported. -/
structure Elaborated where
  events : List Event
  warnings : List Diagnosis
  outcome : Except Diagnosis Program

def elaborateDefinition (settings : Settings) (name : String) (value : Term) (rest : Program) :
    Elaborated :=
  match settings.reduce (.sort none) value with
  | .ok reduced => ⟨[.reduced name reduced], [], .ok (rest.inline settings name reduced)⟩
  | .error diagnosis => ⟨[], [], .error diagnosis⟩

def checkStatement (settings : Settings) (claim : Theorem) : Checked (List Diagnosis) :=
  let typed := typeOf settings claim.statement
  match typed.outcome with
  | .ok _ => ⟨typed.events, .ok []⟩
  | .error diagnosis =>
      if diagnosis.isAmbiguous then
        ⟨typed.events ++ [.ambiguousStatement claim.name diagnosis], .ok [diagnosis]⟩
      else ⟨typed.events, .error diagnosis⟩

def checkProof (settings : Settings) (claim : Theorem) : Checked Term := do
  let statement ← Checked.silent (settings.reduce (.sort none) claim.statement)
  let proof ← Checked.silent (settings.reduce (.sort none) claim.proof)
  let proofType ← typeOf settings claim.proof
  if Term.alphaEquivalent [] statement proofType then
    Checked.note (.proved claim.name proof)
    pure proof
  else
    Checked.fail (.of (.wrongProof claim.name statement.text proofType.text) claim.proof.place)

def elaborateTheorem (settings : Settings) (claim : Theorem) (rest : Program) : Elaborated :=
  let stated := checkStatement settings claim
  match stated.outcome with
  | .error diagnosis => ⟨stated.events, [], .error diagnosis⟩
  | .ok warnings =>
      let proved := checkProof settings claim
      ⟨stated.events ++ proved.events, warnings,
        proved.outcome.map fun proof => rest.inline settings claim.name proof⟩

def elaborateExpression (settings : Settings) (value : Term) (rest : Program) : Elaborated :=
  if settings.checkExpressionSteps then
    let typed := typeOf settings value
    ⟨typed.events, [], typed.outcome.map fun _ => rest⟩
  else ⟨[], [], .ok rest⟩

def elaborateStep (settings : Settings) (step : Step) (rest : Program) : Elaborated :=
  match step with
  | .define name value _ => elaborateDefinition settings name value rest
  | .prove claim _ => elaborateTheorem settings claim rest
  | .express value _ => elaborateExpression settings value rest

end TypeInType
