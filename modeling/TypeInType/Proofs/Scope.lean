import Mathlib.Logic.Function.Iterate
import TypeInType.Proofs.CaptureAvoidance
import TypeInType.Telescope

/-!
Names and their types in a context. A looked-up type is the type as it was
written, under the bindings that stood before its own. Read where it was looked
up, it keeps its meaning exactly when none of its free names has been bound
since, be it by the binding itself.
-/

namespace TypeInType

namespace Term

/-- The names bound since the type of a name was written, its own included. -/
def boundSince : Term → String → List String
  | .pi bound _ rest _, name => if bound = name then [bound] else bound :: rest.boundSince name
  | _, _ => []

def boundBefore : Term → String → List String
  | .pi bound _ rest _, name => if bound = name then rest.boundNames else rest.boundBefore name
  | _, _ => []

/-- Looking the name up captures nothing: no free name of its type was bound since. -/
def LookupClear (context : Term) (name : String) : Prop :=
  ∀ type, context.lookup? name = some type →
    ∀ free ∈ type.freeNames, free ∉ context.boundSince name

theorem boundSince_append_boundBefore {context : Term} {name : String} {type : Term}
    (found : context.lookup? name = some type) :
    context.boundSince name ++ context.boundBefore name = context.boundNames := by
  fun_induction lookup? context name with
  | case1 bound domain rest place =>
      simp [boundSince, boundBefore, boundNames]
  | case2 name bound domain rest place differ ih =>
      simp [boundSince, boundBefore, boundNames, differ, ih found]
  | case3 => cases found

theorem shifts_readWith (count : Nat) (term : Term) (meaning : String → Nameless) :
    Nameless.shift^[count] (term.readWith meaning) =
      term.readWith fun name => Nameless.shift^[count] (meaning name) := by
  induction count generalizing meaning with
  | zero => rfl
  | succ count ih => simp only [Function.iterate_succ_apply, shift_readWith, ih]

theorem position_append_eq_iff (since before : List String) (name : String) :
    position (since ++ before) name = Nameless.shift^[since.length] (position before name) ↔
      name ∉ since := by
  induction since with
  | nil => simp
  | cons bound since ih =>
      rw [List.cons_append, List.length_cons, Function.iterate_succ_apply']
      by_cases same : name = bound
      · rw [same, position_cons_self]
        simpa using (Nameless.shift_ne_bound_zero _).symm
      · rw [position_cons_of_ne same, Nameless.shift_injective.eq_iff, ih]
        simp [same]

theorem namelessUnder_append_iff (since before : List String) (term : Term) :
    term.namelessUnder (since ++ before) =
        Nameless.shift^[since.length] (term.namelessUnder before) ↔
      ∀ free ∈ term.freeNames, free ∉ since := by
  rw [namelessUnder_eq_readWith, namelessUnder_eq_readWith, shifts_readWith]
  constructor
  · intro same free member
    exact (position_append_eq_iff since before free).mp
      (meaning_eq_of_readWith_eq term same free member)
  · intro clear
    apply readWith_congr
    intro free member
    exact (position_append_eq_iff since before free).mpr (clear free member)

/-- A looked-up type keeps its meaning exactly when looking it up captures nothing. -/
theorem lookupClear_iff {context : Term} {name : String} {type : Term}
    (found : context.lookup? name = some type) :
    context.LookupClear name ↔
      type.namelessUnder context.boundNames =
        Nameless.shift^[(context.boundSince name).length]
          (type.namelessUnder (context.boundBefore name)) := by
  rw [← boundSince_append_boundBefore found, namelessUnder_append_iff]
  constructor
  · exact fun clear => clear type found
  · intro clear other foundOther
    rw [found] at foundOther
    cases foundOther
    exact clear

theorem isTelescope_of_namelessUnder_eq {binders others : List String} {left right : Term}
    (same : left.namelessUnder binders = right.namelessUnder others) :
    left.isTelescope = right.isTelescope := by
  induction left generalizing binders others right with
  | bind kind name domain body place domainIH bodyIH =>
      cases sameShape_of_namelessUnder_eq same with
      | bind _ _ otherPlace sameDomain sameBody =>
          cases kind with
          | lambda => rfl
          | pi =>
              rw [isTelescope, isTelescope]
              exact bodyIH sameBody
  | _ =>
      cases sameShape_of_namelessUnder_eq same
      rfl

/-! Contexts with the same bindings, up to names. -/

inductive ContextsAlike : Term → Term → Prop
  | empty (place otherPlace : Option Location) : ContextsAlike (.sort place) (.sort otherPlace)
  | binding {bound other : String} {type rest otherType otherRest : Term}
      (place otherPlace : Option Location) :
      type.namelessUnder rest.boundNames = otherType.namelessUnder otherRest.boundNames →
        ContextsAlike rest otherRest →
          ContextsAlike (.pi bound type rest place) (.pi other otherType otherRest otherPlace)

theorem lookup?_here (bound : String) (type rest : Term) (place : Option Location) :
    (Term.pi bound type rest place).lookup? bound = some type := by
  rw [lookup?, if_pos rfl]

theorem lookup?_elsewhere {bound name : String} (differ : name ≠ bound) (type rest : Term)
    (place : Option Location) :
    (Term.pi bound type rest place).lookup? name = rest.lookup? name := by
  rw [lookup?, if_neg (Ne.symm differ)]

theorem lookup_alike {context other : Term} (alike : ContextsAlike context other)
    {name otherName : String}
    (same : position context.boundNames name = position other.boundNames otherName) :
    (context.lookup? name = none ∧ other.lookup? otherName = none) ∨
      ∃ type otherType, context.lookup? name = some type ∧
        other.lookup? otherName = some otherType ∧
          (context.boundSince name).length = (other.boundSince otherName).length ∧
            type.namelessUnder (context.boundBefore name) =
              otherType.namelessUnder (other.boundBefore otherName) := by
  induction alike with
  | empty place otherPlace => exact .inl ⟨rfl, rfl⟩
  | @binding bound otherBound type rest otherType otherRest place otherPlace sameType _ ih =>
      rw [boundNames, boundNames] at same
      -- Equal positions: the binding at hand is the one on both sides or on neither.
      by_cases here : name = bound
      · have otherHere : otherName = otherBound := by
          by_contra differ
          rw [here, position_cons_self, position_cons_of_ne differ] at same
          exact Nameless.shift_ne_bound_zero _ same.symm
        subst name otherName
        refine .inr ⟨type, otherType, lookup?_here .., lookup?_here .., ?_, ?_⟩
        · simp only [boundSince, if_true, List.length_singleton]
        · simpa only [boundBefore, if_true] using sameType
      · have elsewhere : otherName ≠ otherBound := by
          rintro rfl
          rw [position_cons_self, position_cons_of_ne here] at same
          exact Nameless.shift_ne_bound_zero _ same
        rw [position_cons_of_ne here, position_cons_of_ne elsewhere] at same
        rw [lookup?_elsewhere here, lookup?_elsewhere elsewhere]
        simp only [boundSince, boundBefore, Ne.symm here, Ne.symm elsewhere, if_false,
          List.length_cons, Nat.add_right_cancel_iff]
        exact ih (Nameless.shift_injective same)

end Term

end TypeInType
