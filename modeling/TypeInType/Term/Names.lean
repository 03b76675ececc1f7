import TypeInType.Term.Basic

/-!
The names in a term. A binder binds its name in the body only: its domain lies
outside its scope.
-/

namespace TypeInType.Term

def freeNames : Term → List String
  | .sort _ => []
  | .var name _ => [name]
  | .app function argument _ => function.freeNames ++ argument.freeNames
  | .bind _ name domain body _ => domain.freeNames ++ body.freeNames.filter (· ≠ name)

def hasFree (name : String) : Term → Bool
  | .sort _ => false
  | .var other _ => name = other
  | .app function argument _ => function.hasFree name || argument.hasFree name
  | .bind _ bound domain body _ =>
      domain.hasFree name || (name ≠ bound && body.hasFree name)

def allNames : Term → List String
  | .sort _ => []
  | .var name _ => [name]
  | .app function argument _ => function.allNames ++ argument.allNames
  | .bind _ name domain body _ => name :: domain.allNames ++ body.allNames

theorem hasFree_iff (name : String) (term : Term) :
    term.hasFree name = true ↔ name ∈ term.freeNames := by
  induction term with
  | sort place => simp [hasFree, freeNames]
  | var other place => simp [hasFree, freeNames]
  | app function argument place functionIH argumentIH =>
      simp [hasFree, freeNames, functionIH, argumentIH]
  | bind kind bound domain body place domainIH bodyIH =>
      simp [hasFree, freeNames, domainIH, bodyIH, and_comm]

theorem mem_allNames_of_free (name : String) (term : Term) (free : name ∈ term.freeNames) :
    name ∈ term.allNames := by
  induction term with
  | sort place => simp [freeNames] at free
  | var other place => simpa [freeNames, allNames] using free
  | app function argument place functionIH argumentIH =>
      simp only [freeNames, List.mem_append] at free
      simp only [allNames, List.mem_append]
      exact free.imp functionIH argumentIH
  | bind kind bound domain body place domainIH bodyIH =>
      simp only [freeNames, List.mem_append, List.mem_filter] at free
      simp only [allNames, List.cons_append, List.mem_cons, List.mem_append]
      exact .inr (free.imp domainIH fun inBody => bodyIH inBody.1)

theorem freeNames_bare (term : Term) : term.bare.freeNames = term.freeNames := by
  induction term with
  | sort place => rfl
  | var name place => rfl
  | app function argument place functionIH argumentIH =>
      simp [bare, freeNames, functionIH, argumentIH]
  | bind kind name domain body place domainIH bodyIH =>
      simp [bare, freeNames, domainIH, bodyIH]

theorem hasFree_bare (name : String) (term : Term) :
    term.bare.hasFree name = term.hasFree name := by
  rw [Bool.eq_iff_iff, hasFree_iff, hasFree_iff, freeNames_bare]

theorem allNames_bare (term : Term) : term.bare.allNames = term.allNames := by
  induction term with
  | sort place => rfl
  | var name place => rfl
  | app function argument place functionIH argumentIH =>
      simp [bare, allNames, functionIH, argumentIH]
  | bind kind name domain body place domainIH bodyIH =>
      simp [bare, allNames, domainIH, bodyIH]

end TypeInType.Term
