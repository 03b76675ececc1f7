import TypeInType.Term.Names

/-!
Replacing a variable without regard to capture. A binder of the same name stops
the replacement at its node, annotation included, and no binder is renamed, so
a free name of the replacement may end up bound.
-/

namespace TypeInType.Term

def substitute (term : Term) (name : String) (replacement : Term) : Term :=
  match term with
  | .sort place => .sort place
  | .var other place => if other = name then replacement else .var other place
  | .app function argument place =>
      .app (function.substitute name replacement) (argument.substitute name replacement) place
  | .bind kind bound domain body place =>
      if bound = name then .bind kind bound domain body place
      else
        .bind kind bound (domain.substitute name replacement)
          (body.substitute name replacement) place

theorem substitute_of_not_free (term : Term) (name : String) (replacement : Term)
    (absent : name ∉ term.freeNames) : term.substitute name replacement = term := by
  induction term with
  | sort place => rfl
  | var other place =>
      have differ : ¬other = name := fun same => absent (by simp [freeNames, same])
      simp [substitute, differ]
  | app function argument place functionIH argumentIH =>
      simp only [freeNames, List.mem_append, not_or] at absent
      simp [substitute, functionIH absent.1, argumentIH absent.2]
  | bind kind bound domain body place domainIH bodyIH =>
      by_cases same : bound = name
      · simp [substitute, same]
      · simp only [freeNames, List.mem_append, List.mem_filter, not_or, not_and] at absent
        have inBody : name ∉ body.freeNames := fun member =>
          absent.2 member (by simpa using Ne.symm same)
        simp [substitute, same, domainIH absent.1, bodyIH inBody]

end TypeInType.Term
