import TypeInType.Term.Basic

/-!
Contexts as terms. `Type` is the empty context, and `forall (x : A), rest` is
`rest` with `x : A` added: the binding added last stands outermost.
-/

namespace TypeInType.Term

/-- Is the term a chain of dependent function types that ends in `Type`? The
bound types are not looked at. -/
def isTelescope : Term → Bool
  | .sort _ => true
  | .pi _ _ body _ => body.isTelescope
  | _ => false

def withBinding (context : Term) (name : String) (type : Term) : Term :=
  .pi name type context none

def lookup? : Term → String → Option Term
  | .pi bound domain rest _, name => if bound = name then some domain else rest.lookup? name
  | _, _ => none

def boundNames : Term → List String
  | .pi bound _ rest _ => bound :: rest.boundNames
  | _ => []

theorem isSome_lookup?_iff (context : Term) (name : String) :
    (context.lookup? name).isSome = true ↔ name ∈ context.boundNames := by
  fun_induction lookup? context name with
  | case1 => simp [boundNames]
  | case2 name bound domain rest place differ ih => simp [boundNames, ih, Ne.symm differ]
  | case3 context name notPi =>
      cases context with
      | bind kind bound domain rest place =>
          cases kind with
          | lambda => simp [boundNames]
          | pi => exact absurd rfl (notPi bound domain rest place)
      | _ => simp [boundNames]

end TypeInType.Term
