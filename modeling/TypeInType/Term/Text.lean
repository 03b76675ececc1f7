import TypeInType.Term.Basic

/-!
The written form of a term. Every compound term stands in its own brackets, so
the form can be read back without knowing how tightly anything binds.
-/

namespace TypeInType.Term

def text : Term → String
  | .sort _ => "Type"
  | .var name _ => name
  | .app function argument _ => "(" ++ function.text ++ " " ++ argument.text ++ ")"
  | .lam name domain body _ =>
      "(fun (" ++ name ++ " : " ++ domain.text ++ ") => " ++ body.text ++ ")"
  | .pi name domain body _ =>
      if name = anonymous then
        "(" ++ domain.text ++ " -> " ++ body.text ++ ")"
      else
        "(forall (" ++ name ++ " : " ++ domain.text ++ "), " ++ body.text ++ ")"

theorem text_bare (term : Term) : term.bare.text = term.text := by
  induction term with
  | sort place => rfl
  | var name place => rfl
  | app function argument place functionIH argumentIH =>
      simp [bare, text, functionIH, argumentIH]
  | bind kind name domain body place domainIH bodyIH =>
      cases kind <;> simp [bare, text, domainIH, bodyIH]

end TypeInType.Term
