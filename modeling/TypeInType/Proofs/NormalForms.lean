import TypeInType.Proofs.NormalOrder

/-!
Reduction as a projection. The terms that it returns as they are, with their bound names and
their places, are those that hold no redex at any depth, and all that it returns is of this
kind. So no second reduction changes anything, under whatever context and with whatever limit,
although it takes its new names from another supply.
-/

namespace TypeInType

namespace Term

def parts : Term → List Term
  | .sort place => [.sort place]
  | .var name place => [.var name place]
  | .app function argument place =>
      .app function argument place :: (function.parts ++ argument.parts)
  | .bind kind name domain body place =>
      .bind kind name domain body place :: (domain.parts ++ body.parts)

def isRedex : Term → Bool
  | .app function _ _ => function.isLambda
  | _ => false

/-- A stuck application has a head that is no lambda abstraction, and both of its parts are
looked at. -/
theorem isNormal_iff_parts (term : Term) :
    term.isNormal = true ↔ ∀ part ∈ term.parts, part.isRedex = false := by
  induction term with
  | sort place => simp [isNormal, parts, isRedex]
  | var name place => simp [isNormal, parts, isRedex]
  | app function argument place functionIH argumentIH =>
      rw [parts, List.forall_mem_cons, List.forall_mem_append, ← functionIH, ← argumentIH]
      rcases function.lambda_or_not with ⟨name, domain, body, binderPlace, rfl⟩ | notLambda
      · simp [isNormal, isRedex, isLambda]
      · rw [isNormal_app argument place notLambda, isRedex, Bool.and_eq_true]
        exact ⟨fun normal => ⟨notLambda, normal⟩, And.right⟩
  | bind kind name domain body place domainIH bodyIH =>
      rw [parts, List.forall_mem_cons, List.forall_mem_append, ← domainIH, ← bodyIH, isNormal,
        Bool.and_eq_true]
      exact ⟨fun normal => ⟨rfl, normal⟩, And.right⟩

end Term

theorem isNormal_reduce {context term result : Term} {limit : Int}
    (returned : reduce context term limit = .ok result) : result.isNormal = true :=
  (reduce_keeps (fun _ => True) (fun _ _ => trivial) trivial returned).2

/-- The terms without redexes are the fixed points of reduction, for every context and every
limit, and whatever one reduction returns is a fixed point of all others. -/
theorem reduction_projects_onto_normal_forms (context term : Term) (limit : Int) :
    (reduce context term limit = .ok term ↔ ∀ part ∈ term.parts, part.isRedex = false) ∧
      ∀ result, reduce context term limit = .ok result →
        ∀ other otherLimit, reduce other result otherLimit = .ok result := by
  constructor
  · rw [← term.isNormal_iff_parts]
    constructor
    · exact isNormal_reduce
    · exact fun normal => reduce_of_isNormal normal context limit
  · intro result returned other otherLimit
    exact reduce_of_isNormal (isNormal_reduce returned) other otherLimit

/-- The first reduction has to rename the inner binder; the second one is allowed nothing. -/
theorem renamed_function_reduces_to_itself :
    let pair : Term := .app (.var "x" none) (.var "y" none) none
    let function : Term := .lam "x" (.sort none) (.lam "y" (.sort none) pair none) none
    let term : Term := .app function (.var "y" none) (some ⟨1, 1, ""⟩)
    let other : Term := .pi "y'" (.sort none) (.sort none) none
    ∃ result, reduce (.sort none) term 1 = .ok result ∧
      result.nameless = .bind .lambda .sort (.app (.free "y") (.bound 0)) ∧
        reduce other result (-3) = .ok result := by
  intro pair function term other
  obtain ⟨result, returned, reads⟩ :=
    (reduce_ok_iff (.sort none) term 1 [] (.bind .lambda .sort (.app (.free "y") (.bound 0)))).mpr
      ⟨1, by decide, by decide, rfl⟩
  obtain ⟨_, again⟩ := reduction_projects_onto_normal_forms (.sort none) term 1
  exact ⟨result, returned, reads, again result returned other (-3)⟩

end TypeInType
