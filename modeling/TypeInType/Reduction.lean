import TypeInType.Diagnosis
import TypeInType.Substitution.Avoiding
import TypeInType.Term.Text

/-!
Beta reduction in normal order. First the head of a term is contracted until it
is no redex, then the parts are reduced: a function before its argument, a
binder's domain before its body. All contractions of one reduction draw on one
budget, since with `Type : Type` some terms have no normal form, and take their
new names from one supply.
-/

namespace TypeInType

/-- Where a reduction stands: the term it has reached, the contractions it may
still make and the names in use. -/
structure Stage where
  term : Term
  budget : Nat
  supply : NameSupply

namespace Stage

/-- Part of the budget was spent, or else the term has not grown. -/
def Follows (stage start : Stage) : Prop :=
  stage.budget < start.budget ∨
    stage.budget = start.budget ∧ stage.term.size ≤ start.term.size

abbrev After (start : Stage) : Type := { stage : Stage // stage.Follows start }

theorem Follows.budget_le {stage start : Stage} (follows : stage.Follows start) :
    stage.budget ≤ start.budget :=
  follows.elim Nat.le_of_lt fun same => Nat.le_of_eq same.1

theorem Follows.trans {last stage start : Stage} (later : last.Follows stage)
    (earlier : stage.Follows start) : last.Follows start := by
  unfold Follows at *
  omega

/-- Contracts a redex, if the budget allows one more. The place of the contracted
application is lost. -/
def contract? (name : String) (body argument : Term) (budget : Nat) (supply : NameSupply) :
    Option Stage :=
  match budget with
  | 0 => none
  | left + 1 =>
      let (term, supply) := body.substituteAvoiding name argument supply
      some ⟨term, left, supply⟩

theorem budget_of_contract? {name : String} {body argument : Term} {budget : Nat}
    {supply : NameSupply} {stage : Stage}
    (contracted : contract? name body argument budget supply = some stage) :
    stage.budget + 1 = budget := by
  cases budget with
  | zero => simp [contract?] at contracted
  | succ left =>
      simp only [contract?, Option.some.injEq] at contracted
      rw [← contracted]

def headNormal (start : Stage) : Option start.After :=
  match start with
  | ⟨.app function argument place, budget, supply⟩ =>
      match headNormal ⟨function, budget, supply⟩ with
      | none => none
      | some head =>
          match head.1.term with
          | .bind .lambda name _ body _ =>
              match contracted : contract? name body argument head.1.budget head.1.supply with
              | none => none
              | some stage =>
                  match headNormal stage with
                  | none => none
                  | some last => some ⟨last, last.2.trans (.inl (by
                      have := head.2.budget_le
                      have := budget_of_contract? contracted
                      dsimp only at *
                      omega))⟩
          | _ =>
              some ⟨⟨.app head.1.term argument place, head.1.budget, head.1.supply⟩, by
                have := head.2
                simp only [Follows, Term.size] at *
                omega⟩
  | start => some ⟨start, .inr ⟨rfl, Nat.le_refl _⟩⟩
termination_by (start.budget, start.term.size)
decreasing_by
  · apply Prod.Lex.right
    simp only [Term.size]
    omega
  · apply Prod.Lex.left
    have := head.2.budget_le
    have := budget_of_contract? contracted
    dsimp only at *
    omega

def normalize (start : Stage) : Option start.After :=
  match headNormal start with
  | none => none
  | some head =>
      match shape : head.1.term with
      | .app function argument place =>
          match normalize ⟨function, head.1.budget, head.1.supply⟩ with
          | none => none
          | some first =>
              match normalize ⟨argument, first.1.budget, first.1.supply⟩ with
              | none => none
              | some second =>
                  some ⟨⟨.app first.1.term second.1.term place, second.1.budget,
                    second.1.supply⟩, by
                    have := head.2
                    have := first.2
                    have := second.2
                    simp only [Follows, shape, Term.size] at *
                    omega⟩
      | .bind kind name domain body place =>
          match normalize ⟨domain, head.1.budget, head.1.supply⟩ with
          | none => none
          | some first =>
              match normalize ⟨body, first.1.budget, first.1.supply⟩ with
              | none => none
              | some second =>
                  some ⟨⟨.bind kind name first.1.term second.1.term place, second.1.budget,
                    second.1.supply⟩, by
                    have := head.2
                    have := first.2
                    have := second.2
                    simp only [Follows, shape, Term.size] at *
                    omega⟩
      | _ => some head
termination_by (start.budget, start.term.size)
decreasing_by
  all_goals
    have := head.2
    try have := first.2
    simp only [Follows, shape, Term.size, Prod.lex_def] at *
    omega

end Stage

namespace Term

def isNormal : Term → Bool
  | .sort _ => true
  | .var _ _ => true
  | .app (.lam _ _ _ _) _ _ => false
  | .app function argument _ => function.isNormal && argument.isNormal
  | .bind _ _ domain body _ => domain.isNormal && body.isNormal

end Term

def reduce (context term : Term) (limit : Int) : Except Diagnosis Term :=
  match Stage.normalize ⟨term, limit.toNat, .ofTerms [term, context]⟩ with
  | some normal => .ok normal.1.term
  | none => .error (.of (.nonNormalizing term.text limit) term.place)

end TypeInType
