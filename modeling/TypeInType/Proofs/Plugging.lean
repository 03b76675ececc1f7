import TypeInType.Substitution.Avoiding
import TypeInType.Substitution.Naive

/-!
Replacing a variable where no binder is in the way. The naive substitution and the one that
avoids capture are then one walk, which plugs the replacement in where the name is free. They
part only at a binder of the replaced name, which hides the name from the naive one in its
annotation, and at a binder that captures, which the other one renames. The binders inside
the body of a binder of the replaced name do not count: neither of the two gets there.
-/

namespace TypeInType

namespace Term

/-- A value in the place of the free occurrences of a name, under whatever binders. A binder
of the name stops it in the body, and in the annotation too if it `stops` there. -/
def plug (stops : Bool) (term : Term) (name : String) (value : Term) : Term :=
  match term with
  | .sort place => .sort place
  | .var other place => if other = name then value else .var other place
  | .app function argument place =>
      .app (function.plug stops name value) (argument.plug stops name value) place
  | .bind kind bound domain body place =>
      if bound = name then
        .bind kind bound (if stops then domain else domain.plug stops name value) body place
      else .bind kind bound (domain.plug stops name value) (body.plug stops name value) place

theorem substitute_eq_plug (term : Term) (name : String) (value : Term) :
    term.substitute name value = term.plug true name value := by
  induction term with
  | sort place => rfl
  | var other place => rfl
  | app function argument place functionIH argumentIH =>
      rw [substitute, plug, functionIH, argumentIH]
  | bind kind bound domain body place domainIH bodyIH =>
      rw [substitute, plug, domainIH, bodyIH, if_pos rfl]

theorem plug_of_not_free (stops : Bool) (term : Term) (name : String) (value : Term)
    (absent : name ∉ term.freeNames) : term.plug stops name value = term := by
  induction term with
  | sort place => rfl
  | var other place =>
      have differ : ¬other = name := fun same => absent (by simp [freeNames, same])
      rw [plug, if_neg differ]
  | app function argument place functionIH argumentIH =>
      simp only [freeNames, List.mem_append, not_or] at absent
      rw [plug, functionIH absent.1, argumentIH absent.2]
  | bind kind bound domain body place domainIH bodyIH =>
      simp only [freeNames, List.mem_append, List.mem_filter, not_or, not_and] at absent
      rw [plug, domainIH absent.1, ite_self]
      split
      · rfl
      · rename_i differ
        have inBody : name ∉ body.freeNames := fun member =>
          absent.2 member (by simpa using Ne.symm differ)
        rw [bodyIH inBody]

theorem plug_self (stops : Bool) (term : Term) (name : String) (place : Option Location) :
    (term.plug stops name (.var name place)).Same term := by
  rw [Same]
  induction term with
  | sort place => rfl
  | var other place =>
      by_cases same : other = name
      · simp [plug, bare, same]
      · simp [plug, bare, same]
  | app function argument place functionIH argumentIH =>
      rw [plug, bare, functionIH, argumentIH, bare]
  | bind kind bound domain body place domainIH bodyIH =>
      by_cases same : bound = name
      · cases stops <;> simp [plug, bare, same, domainIH]
      · simp [plug, bare, same, domainIH, bodyIH]

end Term

/-! ## Binders in the way -/

structure Binder where
  name : String
  domain : Term
  body : Term

namespace Binder

/-- A binder of the name, over an annotation in which the name is still free. -/
def Hides (binder : Binder) (name : String) : Prop :=
  binder.name = name ∧ name ∈ binder.domain.freeNames

/-- A binder of another name, which is free in what comes into the body. -/
def Captures (binder : Binder) (name : String) (replacement : Term) : Prop :=
  binder.name ≠ name ∧ binder.name ∈ replacement.freeNames ∧ name ∈ binder.body.freeNames

instance (binder : Binder) (name : String) : Decidable (binder.Hides name) :=
  inferInstanceAs (Decidable (_ ∧ _))

instance (binder : Binder) (name : String) (replacement : Term) :
    Decidable (binder.Captures name replacement) :=
  inferInstanceAs (Decidable (_ ∧ _ ∧ _))

end Binder

namespace Term

def bindersOutside (name : String) : Term → List Binder
  | .sort _ => []
  | .var _ _ => []
  | .app function argument _ => function.bindersOutside name ++ argument.bindersOutside name
  | .bind _ bound domain body _ =>
      ⟨bound, domain, body⟩ ::
        (domain.bindersOutside name ++ if bound = name then [] else body.bindersOutside name)

theorem forall_bindersOutside_app {holds : Binder → Prop} (name : String)
    (function argument : Term) (place : Option Location) :
    (∀ binder ∈ (Term.app function argument place).bindersOutside name, holds binder) ↔
      (∀ binder ∈ function.bindersOutside name, holds binder) ∧
        ∀ binder ∈ argument.bindersOutside name, holds binder := by
  rw [bindersOutside]
  exact List.forall_mem_append

theorem forall_bindersOutside_bind {holds : Binder → Prop} (kind : BinderKind)
    (name bound : String) (domain body : Term) (place : Option Location) :
    (∀ binder ∈ (Term.bind kind bound domain body place).bindersOutside name, holds binder) ↔
      holds ⟨bound, domain, body⟩ ∧ (∀ binder ∈ domain.bindersOutside name, holds binder) ∧
        (bound ≠ name → ∀ binder ∈ body.bindersOutside name, holds binder) := by
  rw [bindersOutside, List.forall_mem_cons, List.forall_mem_append]
  by_cases same : bound = name <;> simp [same]

theorem not_captures_of_not_free {term : Term} {name : String} (absent : name ∉ term.freeNames)
    (replacement : Term) :
    ∀ binder ∈ term.bindersOutside name, ¬binder.Captures name replacement := by
  induction term with
  | sort place => exact List.forall_mem_nil _
  | var other place => exact List.forall_mem_nil _
  | app function argument place functionIH argumentIH =>
      rw [freeNames, List.mem_append, not_or] at absent
      rw [forall_bindersOutside_app]
      exact ⟨functionIH absent.1, argumentIH absent.2⟩
  | bind kind bound domain body place domainIH bodyIH =>
      simp only [freeNames, List.mem_append, List.mem_filter, decide_eq_true_eq, not_or,
        not_and] at absent
      rw [forall_bindersOutside_bind]
      refine ⟨?_, domainIH absent.1, fun differ => bodyIH fun member => ?_⟩
      · rintro ⟨differ, _, inBody⟩
        exact absent.2 inBody (Ne.symm differ)
      · exact absent.2 member (Ne.symm differ)

/-- Where no binder captures, none is renamed, and the supply is not drawn on. -/
theorem replace_of_uncaptured (term : Term) (name : String) (replacement : Term)
    (supply : NameSupply)
    (uncaptured : ∀ binder ∈ term.bindersOutside name, ¬binder.Captures name replacement) :
    term.replace name replacement supply = (term.plug false name replacement, supply) := by
  induction term generalizing supply with
  | sort place => rw [replace, plug]
  | var other place => rw [replace, plug]
  | app function argument place functionIH argumentIH =>
      rw [forall_bindersOutside_app] at uncaptured
      simp only [replace, plug, functionIH supply uncaptured.1, argumentIH supply uncaptured.2]
  | bind kind bound domain body place domainIH bodyIH =>
      rw [forall_bindersOutside_bind] at uncaptured
      obtain ⟨here, inDomain, inBody⟩ := uncaptured
      simp only [replace, plug, domainIH supply inDomain, Bool.false_eq_true, if_false]
      by_cases same : bound = name
      · simp only [same, true_or, if_true]
      · by_cases free : body.hasFree name = true
        · have safe : replacement.hasFree bound = false := by
            rw [← Bool.not_eq_true, hasFree_iff]
            exact fun member => here ⟨same, member, (hasFree_iff _ _).mp free⟩
          simp only [same, free, safe, not_true_eq_false, or_self, Bool.false_eq_true, if_false,
            bodyIH supply (inBody same)]
        · -- The walk ends here, where the plug finds nothing to do.
          have absent : name ∉ body.freeNames := fun member => free ((hasFree_iff _ _).mpr member)
          simp only [same, free, plug_of_not_free false body name replacement absent,
            Bool.false_eq_true, not_false_eq_true, or_true, if_true, if_false]

theorem plug_stops_of_unhidden (term : Term) (name : String) (value : Term)
    (unhidden : ∀ binder ∈ term.bindersOutside name, ¬binder.Hides name) :
    term.plug true name value = term.plug false name value := by
  induction term with
  | sort place => rfl
  | var other place => rfl
  | app function argument place functionIH argumentIH =>
      rw [forall_bindersOutside_app] at unhidden
      rw [plug, plug, functionIH unhidden.1, argumentIH unhidden.2]
  | bind kind bound domain body place domainIH bodyIH =>
      rw [forall_bindersOutside_bind] at unhidden
      obtain ⟨here, inDomain, inBody⟩ := unhidden
      by_cases same : bound = name
      · have absent : name ∉ domain.freeNames := fun member => here ⟨same, member⟩
        simp only [plug, same, if_true, Bool.false_eq_true, if_false,
          plug_of_not_free false domain name value absent]
      · simp only [plug, same, if_false, domainIH inDomain, bodyIH (inBody same)]

theorem substituteAvoiding_of_uncaptured (term : Term) (name : String) (replacement : Term)
    (supply : NameSupply)
    (uncaptured : ∀ binder ∈ term.bindersOutside name, ¬binder.Captures name replacement) :
    (term.substituteAvoiding name replacement supply).1 = term.plug false name replacement := by
  rw [substituteAvoiding, replace_of_uncaptured term name replacement _ uncaptured]

end Term

/-! ## The two substitutions -/

/-- Where no binder hides the name and none captures, the naive substitution is the one that
avoids capture, bound names and places included. -/
theorem substitutions_agree_where_clear (term : Term) (name : String) (replacement : Term)
    (supply : NameSupply)
    (clear : ∀ binder ∈ term.bindersOutside name,
      ¬(binder.Hides name ∨ binder.Captures name replacement)) :
    term.substitute name replacement = (term.substituteAvoiding name replacement supply).1 := by
  have unhidden : ∀ binder ∈ term.bindersOutside name, ¬binder.Hides name :=
    fun binder member hides => clear binder member (.inl hides)
  have uncaptured : ∀ binder ∈ term.bindersOutside name, ¬binder.Captures name replacement :=
    fun binder member captures => clear binder member (.inr captures)
  calc term.substitute name replacement
      = term.plug true name replacement := term.substitute_eq_plug name replacement
    _ = term.plug false name replacement := term.plug_stops_of_unhidden name replacement unhidden
    _ = (term.substituteAvoiding name replacement supply).1 :=
      (term.substituteAvoiding_of_uncaptured name replacement supply uncaptured).symm

/-- The binder of `y` would capture the replacement, but it stands in the body of a binder
of `v`. -/
theorem substitutions_agree_behind_shadowing_binder :
    let shadowed : Term := .lam "v" (.sort none) (.lam "y" (.var "v" none) (.var "v" none) none) none
    let term : Term := .app (.lam "x" (.var "v" none) (.var "v" none) none) shadowed none
    let replacement : Term := .app (.var "y" none) (.var "v" none) none
    (∀ binder ∈ term.bindersOutside "v",
        ¬(binder.Hides "v" ∨ binder.Captures "v" replacement)) ∧
      term.substitute "v" replacement =
        (term.substituteAvoiding "v" replacement (.ofNames ["x'"])).1 := by
  intro shadowed term replacement
  have clear : ∀ binder ∈ term.bindersOutside "v",
      ¬(binder.Hides "v" ∨ binder.Captures "v" replacement) := by
    decide
  exact ⟨clear, substitutions_agree_where_clear term "v" replacement _ clear⟩

/-- Where a name is not free, replacing it changes nothing at all, and a name that is replaced
by itself leaves the term as it was, up to places. No binder is renamed in either case,
whatever the binders and the supply. -/
theorem idle_substitution_keeps_term (term : Term) (name : String) :
    (name ∉ term.freeNames → ∀ replacement supply,
      term.substitute name replacement = term ∧
        (term.substituteAvoiding name replacement supply).1 = term) ∧
    ∀ place supply,
      (term.substitute name (.var name place)).Same term ∧
        (term.substituteAvoiding name (.var name place) supply).1.Same term := by
  constructor
  · intro absent replacement supply
    have uncaptured := Term.not_captures_of_not_free absent replacement
    constructor
    · exact term.substitute_of_not_free name replacement absent
    · rw [term.substituteAvoiding_of_uncaptured name replacement supply uncaptured]
      exact term.plug_of_not_free false name replacement absent
  · intro place supply
    -- Only a binder of the name itself could capture it, and that one stops the walk.
    have uncaptured : ∀ binder ∈ term.bindersOutside name,
        ¬binder.Captures name (.var name place) := by
      rintro binder _ ⟨differ, member, _⟩
      exact differ (List.mem_singleton.mp member)
    constructor
    · rw [term.substitute_eq_plug]
      exact term.plug_self true name place
    · rw [term.substituteAvoiding_of_uncaptured name _ supply uncaptured]
      exact term.plug_self false name place

/-- A binder of `y` over a body without `v` keeps its name. -/
theorem idle_substitution_renames_no_binder :
    let term : Term := .pi "y" (.var "y" none) (.lam "v" (.var "y" none) (.var "v" none) none) none
    let replacement : Term := .app (.var "y" none) (.var "v" none) none
    "v" ∉ term.freeNames ∧
      (term.substitute "v" replacement = term ∧
        (term.substituteAvoiding "v" replacement (.ofNames ["y'"])).1 = term) ∧
      (term.substitute "y" (.var "y" none)).Same term := by
  intro term replacement
  have absent : "v" ∉ term.freeNames := by
    decide
  obtain ⟨notFree, _⟩ := idle_substitution_keeps_term term "v"
  obtain ⟨_, itself⟩ := idle_substitution_keeps_term term "y"
  exact ⟨absent, notFree absent replacement _, (itself none .empty).1⟩

end TypeInType
