import TypeInType.Term.Alpha

/-!
Terms without bound names: an occurrence of a bound variable is the number of
binders between it and its own. Terms that differ only in bound names and in
places have one nameless reading.
-/

namespace TypeInType

inductive Nameless where
  | sort
  | bound (depth : Nat)
  | free (name : String)
  | app (function argument : Nameless)
  | bind (kind : BinderKind) (domain body : Nameless)
  deriving DecidableEq, Repr

namespace Term

/-- The reading of a term under binders of the given names, innermost first. -/
def namelessUnder (binders : List String) : Term → Nameless
  | .sort _ => .sort
  | .var name _ =>
      match depth? binders name with
      | some depth => .bound depth
      | none => .free name
  | .app function argument _ =>
      .app (function.namelessUnder binders) (argument.namelessUnder binders)
  | .bind kind name domain body _ =>
      .bind kind (domain.namelessUnder binders) (body.namelessUnder (name :: binders))

def nameless (term : Term) : Nameless :=
  term.namelessUnder []

theorem namelessUnder_bare (binders : List String) (term : Term) :
    term.bare.namelessUnder binders = term.namelessUnder binders := by
  induction term generalizing binders with
  | sort place => rfl
  | var name place => rfl
  | app function argument place functionIH argumentIH =>
      simp [bare, namelessUnder, functionIH, argumentIH]
  | bind kind name domain body place domainIH bodyIH =>
      simp [bare, namelessUnder, domainIH, bodyIH]

end Term

end TypeInType
