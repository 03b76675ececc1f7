import TypeInType.Location
import TypeInType.Document.Json

/-!
Why a text, a term or a program was refused. A diagnosis names its cause, the
place it points at and, once a program run has met it, the step it arose in.
-/

namespace TypeInType

inductive Cause where
  | badSyntax (message : String)
  | unboundVariable (name : String)
  | notAFunction (function functionType : String)
  | wrongArgument (argument expected actual : String)
  | malformedPi (term : String)
  | invalidContext (term : String)
  | wrongProof (name statement proofType : String)
  | ambiguous (context telescope : String)
  | nonNormalizing (term : String) (limit : Int)
  deriving DecidableEq, Repr

namespace Cause

def kind : Cause → String
  | .badSyntax _ => "syntax_error"
  | .unboundVariable _ => "unbound_variable"
  | .notAFunction _ _ => "type_mismatch"
  | .wrongArgument _ _ _ => "application_domain_mismatch"
  | .malformedPi _ => "malformed_pi_type"
  | .invalidContext _ => "invalid_context"
  | .wrongProof _ _ _ => "proof_statement_mismatch"
  | .ambiguous _ _ => "ambiguous"
  | .nonNormalizing _ _ => "non_normalizing"

def message : Cause → String
  | .badSyntax message => message
  | .unboundVariable name => "Unbound variable '" ++ name ++ "'"
  | .notAFunction function functionType =>
      "Cannot apply '" ++ function ++ "' of non-function type '" ++ functionType ++ "'"
  | .wrongArgument argument expected actual =>
      "Argument '" ++ argument ++ "' has type '" ++ actual ++ "', expected '" ++ expected ++ "'"
  | .malformedPi term => "Body of '" ++ term ++ "' is not a valid context"
  | .invalidContext term => "'" ++ term ++ "' is not a valid context"
  | .wrongProof name statement proofType =>
      "Proof of '" ++ name ++ "' has type '" ++ proofType ++ "', expected '" ++ statement ++ "'"
  | .ambiguous context telescope =>
      "No rule decides whether '" ++ telescope ++ "' is a context under '" ++ context ++ "'"
  | .nonNormalizing term limit =>
      "'" ++ term ++ "' did not reach a normal form within " ++ toString limit ++ " beta steps"

def details : Cause → List (String × Document)
  | .badSyntax _ => []
  | .unboundVariable name => [("name", .text name), ("judgement", .text "synthesize")]
  | .notAFunction function functionType =>
      [("node", .text function), ("expected_type", .text "forall"),
        ("actual_type", .text functionType), ("judgement", .text "synthesize")]
  | .wrongArgument argument expected actual =>
      [("node", .text argument), ("expected_type", .text expected),
        ("actual_type", .text actual), ("judgement", .text "synthesize")]
  | .malformedPi term => [("node", .text term), ("judgement", .text "typecheck_context")]
  | .invalidContext term => [("node", .text term), ("judgement", .text "typecheck_context")]
  | .wrongProof name statement proofType =>
      [("theorem", .text name), ("expected_type", .text statement),
        ("actual_type", .text proofType), ("judgement", .text "elaborate_theorem")]
  | .ambiguous context telescope =>
      [("gamma", .text context), ("delta", .text telescope),
        ("judgement", .text "typecheck_context")]
  | .nonNormalizing term limit =>
      [("node", .text term), ("limit", .integer limit), ("judgement", .text "beta_reduction")]

end Cause

structure StepMark where
  index : Nat
  label : String
  deriving DecidableEq, Repr

structure Diagnosis where
  cause : Cause
  place : Option Location
  step : Option StepMark
  deriving DecidableEq, Repr

namespace Diagnosis

def of (cause : Cause) (place : Option Location) : Diagnosis :=
  ⟨cause, place, none⟩

/-- The diagnosis as met in a step. The step's own place stands in for a
missing one. -/
def atStep (diagnosis : Diagnosis) (mark : StepMark) (place : Option Location) : Diagnosis :=
  { diagnosis with place := diagnosis.place.or place, step := some mark }

def isAmbiguous (diagnosis : Diagnosis) : Bool :=
  match diagnosis.cause with
  | .ambiguous _ _ => true
  | _ => false

def text (diagnosis : Diagnosis) : String :=
  let place := match diagnosis.place with
    | some place => " at " ++ place.text
    | none => ""
  "[" ++ diagnosis.cause.kind ++ "]" ++ place ++ ": " ++ diagnosis.cause.message

def details (diagnosis : Diagnosis) : List (String × Document) :=
  match diagnosis.step with
  | some mark =>
      diagnosis.cause.details
        ++ [("step_index", .integer mark.index), ("step_name", .text mark.label)]
  | none => diagnosis.cause.details

def document (diagnosis : Diagnosis) : Document :=
  let place := match diagnosis.place with
    | some place =>
        [("location", .record
          [("file", .text place.file), ("line", .integer place.line),
            ("column", .integer place.column)])]
    | none => []
  let details := match diagnosis.details with
    | [] => []
    | details => [("details", .record details)]
  .record ([("kind", .text diagnosis.cause.kind), ("message", .text diagnosis.cause.message)]
    ++ place ++ details)

def texts (diagnoses : List Diagnosis) : String :=
  "\n".intercalate (diagnoses.map text)

def documents (diagnoses : List Diagnosis) : Document :=
  .list (diagnoses.map document)

end Diagnosis

theorem bind_eq_ok_iff {ε α β : Type} {first : Except ε α} {next : α → Except ε β} {result : β} :
    first >>= next = .ok result ↔ ∃ value, first = .ok value ∧ next value = .ok result := by
  constructor
  · intro succeeds
    cases first with
    | error fault => cases succeeds
    | ok value => exact ⟨value, rfl, succeeds⟩
  · rintro ⟨value, rfl, succeeds⟩
    exact succeeds

end TypeInType
