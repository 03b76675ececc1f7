import TypeInType.NameSupply

/-!
Replacing a variable without capture. A binder that would capture a free name of
the replacement is renamed first, with a name from a supply. The annotation of a
binder of the replaced name is outside its scope, so the name is replaced in it.
-/

namespace TypeInType

namespace Term

/-- Every free occurrence of one name becomes another. A renamed occurrence has
no place. -/
def rename (term : Term) (old new : String) : Term :=
  match term with
  | .sort place => .sort place
  | .var name place => if name = old then .var new none else .var name place
  | .app function argument place =>
      .app (function.rename old new) (argument.rename old new) place
  | .bind kind name domain body place =>
      .bind kind name (domain.rename old new)
        (if name = old then body else body.rename old new) place

theorem size_rename (term : Term) (old new : String) :
    (term.rename old new).size = term.size := by
  induction term with
  | sort place => rfl
  | var name place =>
      simp only [rename]
      split <;> rfl
  | app function argument place functionIH argumentIH =>
      simp [rename, size, functionIH, argumentIH]
  | bind kind name domain body place domainIH bodyIH =>
      simp only [rename, size, domainIH]
      split <;> simp [bodyIH]

/-- Replaces the free occurrences of `name`. The names of both terms must be in
use in the supply. -/
def replace (term : Term) (name : String) (replacement : Term) (supply : NameSupply) :
    Term × NameSupply :=
  match term with
  | .sort place => (.sort place, supply)
  | .var other place =>
      (if other = name then replacement else .var other place, supply)
  | .app function argument place =>
      let (function, supply) := function.replace name replacement supply
      let (argument, supply) := argument.replace name replacement supply
      (.app function argument place, supply)
  | .bind kind bound domain body place =>
      let (domain, supply) := domain.replace name replacement supply
      if bound = name ∨ ¬body.hasFree name then
        (.bind kind bound domain body place, supply)
      else if replacement.hasFree bound then
        let (renamed, supply) := supply.fresh bound
        let (body, supply) := (body.rename bound renamed).replace name replacement supply
        (.bind kind renamed domain body place, supply)
      else
        let (body, supply) := body.replace name replacement supply
        (.bind kind bound domain body place, supply)
termination_by term.size
decreasing_by
  all_goals simp only [size, size_rename]
  all_goals omega

/-- The term with a variable replaced, and the supply in which every name that
played a part is used. -/
def substituteAvoiding (term : Term) (name : String) (replacement : Term)
    (supply : NameSupply) : Term × NameSupply :=
  term.replace name replacement
    (((supply.insert name).reserveTerm term).reserveTerm replacement)

end Term

end TypeInType
