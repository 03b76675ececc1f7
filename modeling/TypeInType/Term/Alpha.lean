import TypeInType.Term.Basic

/-!
Equality of terms up to the names of bound variables, decided in one walk over
both terms. The pairs of binders that have been passed are listed innermost
first; two bound variables agree when their binders stand at the same depth.
-/

namespace TypeInType.Term

/-- How many binders stand between a name and the one that binds it. -/
def depth? (names : List String) (name : String) : Option Nat :=
  names.findIdx? (· = name)

def alphaEquivalent (pairs : List (String × String)) : Term → Term → Bool
  | .sort _, .sort _ => true
  | .var left _, .var right _ =>
      match depth? (pairs.map Prod.fst) left, depth? (pairs.map Prod.snd) right with
      | none, none => left = right
      | some leftDepth, some rightDepth => leftDepth = rightDepth
      | _, _ => false
  | .app leftFunction leftArgument _, .app rightFunction rightArgument _ =>
      alphaEquivalent pairs leftFunction rightFunction
        && alphaEquivalent pairs leftArgument rightArgument
  | .bind leftKind left leftDomain leftBody _, .bind rightKind right rightDomain rightBody _ =>
      leftKind = rightKind
        && alphaEquivalent pairs leftDomain rightDomain
        && alphaEquivalent ((left, right) :: pairs) leftBody rightBody
  | _, _ => false

end TypeInType.Term
