import TypeInType.Term.Text

/-!
Programs: definitions and theorems in order, and possibly one expression, which
can only come last.
-/

namespace TypeInType

structure Theorem where
  name : String
  statement : Term
  proof : Term
  deriving DecidableEq, Repr

inductive Step where
  | define (name : String) (value : Term) (place : Option Location)
  | prove (claim : Theorem) (place : Option Location)
  | express (value : Term) (place : Option Location)
  deriving DecidableEq, Repr

abbrev Program := List Step

namespace Theorem

def text (claim : Theorem) : String :=
  "theorem " ++ claim.name ++ " : " ++ claim.statement.text ++ " := " ++ claim.proof.text

def bare (claim : Theorem) : Theorem :=
  ⟨claim.name, claim.statement.bare, claim.proof.bare⟩

end Theorem

namespace Step

def label : Step → String
  | .define name _ _ => name
  | .prove claim _ => claim.name
  | .express _ _ => "<expr>"

def place : Step → Option Location
  | .define _ _ place => place
  | .prove _ place => place
  | .express _ place => place

def isDeclaration : Step → Bool
  | .express _ _ => false
  | _ => true

def text : Step → String
  | .define name value _ => "let " ++ name ++ " = " ++ value.text ++ ";"
  | .prove claim _ => claim.text ++ ";"
  | .express value _ => value.text

def bare : Step → Step
  | .define name value _ => .define name value.bare none
  | .prove claim _ => .prove claim.bare none
  | .express value _ => .express value.bare none

end Step

namespace Program

def text (program : Program) : String :=
  "\n".intercalate (program.map Step.text)

def labels (program : Program) : List String :=
  program.map Step.label

/-- Only the last step may be an expression. -/
def Linked (program : Program) : Prop :=
  ∀ step ∈ program.dropLast, step.isDeclaration = true

instance (program : Program) : Decidable (Linked program) :=
  inferInstanceAs (Decidable (∀ step ∈ program.dropLast, step.isDeclaration = true))

def notLinked : String := "An expression step must be the last step"

def link? (steps : List Step) : Option Program :=
  if Linked steps then some steps else none

theorem link?_eq_some_iff (steps : List Step) (program : Program) :
    link? steps = some program ↔ program = steps ∧ Linked steps := by
  unfold link?
  split
  · simp_all [eq_comm]
  · simp_all

end Program

end TypeInType
