import TypeInType.Location

/-!
Terms of the calculus: variables, applications, lambda abstractions, dependent
function types and the one sort `Type`. Every node may carry the place it was
read from. Two terms are the same term when they agree with all places removed.
-/

namespace TypeInType

inductive BinderKind where
  | lambda
  | pi
  deriving DecidableEq, Repr

inductive Term where
  | sort (place : Option Location)
  | var (name : String) (place : Option Location)
  | app (function argument : Term) (place : Option Location)
  | bind (kind : BinderKind) (name : String) (domain body : Term) (place : Option Location)
  deriving DecidableEq, Repr, Inhabited

namespace Term

@[match_pattern] abbrev lam (name : String) (domain body : Term) (place : Option Location) :
    Term :=
  .bind .lambda name domain body place

@[match_pattern] abbrev pi (name : String) (domain body : Term) (place : Option Location) :
    Term :=
  .bind .pi name domain body place

/-- The binder that no occurrence refers to in `A -> B`. -/
def anonymous : String := "_"

def arrow (domain codomain : Term) (place : Option Location) : Term :=
  .pi anonymous domain codomain place

def place : Term → Option Location
  | .sort place => place
  | .var _ place => place
  | .app _ _ place => place
  | .bind _ _ _ _ place => place

def isBinder : Term → Bool
  | .bind _ _ _ _ _ => true
  | _ => false

def isSort : Term → Bool
  | .sort _ => true
  | _ => false

def size : Term → Nat
  | .sort _ => 1
  | .var _ _ => 1
  | .app function argument _ => function.size + argument.size + 1
  | .bind _ _ domain body _ => domain.size + body.size + 1

theorem size_pos (term : Term) : 0 < term.size := by
  cases term <;> simp [size]

def bare : Term → Term
  | .sort _ => .sort none
  | .var name _ => .var name none
  | .app function argument _ => .app function.bare argument.bare none
  | .bind kind name domain body _ => .bind kind name domain.bare body.bare none

/-- Equality of terms whatever their places; names of bound variables count. -/
def Same (left right : Term) : Prop :=
  left.bare = right.bare

instance (left right : Term) : Decidable (Same left right) :=
  inferInstanceAs (Decidable (left.bare = right.bare))

end Term

end TypeInType
