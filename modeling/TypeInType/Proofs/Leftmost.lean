import TypeInType.Proofs.CaptureAvoidance
import TypeInType.Reduction

/-!
One contraction in normal order. `leftmost` contracts the first of the outermost
redexes of a nameless term, and `contractLeftmost` does the same to a named one,
taking new names from a supply. Both find the same redex, whatever the binders
around the term are called.
-/

namespace TypeInType

namespace Nameless

/-- Contracts the redex that stands leftmost among the outermost ones. -/
def leftmost : Nameless → Option Nameless
  | .app (.bind .lambda _ body) argument => some (body.instantiate argument)
  | .app function argument =>
      match function.leftmost with
      | some next => some (.app next argument)
      | none => argument.leftmost.map (.app function)
  | .bind kind domain body =>
      match domain.leftmost with
      | some next => some (.bind kind next body)
      | none => body.leftmost.map (.bind kind domain)
  | _ => none

def isNormal : Nameless → Bool
  | .app (.bind .lambda _ _) _ => false
  | .app function argument => function.isNormal && argument.isNormal
  | .bind _ domain body => domain.isNormal && body.isNormal
  | _ => true

def isLambda : Nameless → Bool
  | .bind .lambda _ _ => true
  | _ => false

theorem lambda_or_not (term : Nameless) :
    (∃ domain body, term = .bind .lambda domain body) ∨ term.isLambda = false := by
  cases term with
  | bind kind domain body =>
      cases kind with
      | lambda => exact .inl ⟨domain, body, rfl⟩
      | pi => exact .inr rfl
  | _ => exact .inr rfl

theorem leftmost_app {function : Nameless} (argument : Nameless)
    (notLambda : function.isLambda = false) :
    (Nameless.app function argument).leftmost =
      match function.leftmost with
      | some next => some (.app next argument)
      | none => argument.leftmost.map (.app function) := by
  cases function with
  | bind kind domain body =>
      cases kind with
      | lambda => simp [isLambda] at notLambda
      | pi => rfl
  | _ => rfl

theorem isNormal_app {function : Nameless} (argument : Nameless)
    (notLambda : function.isLambda = false) :
    (Nameless.app function argument).isNormal = (function.isNormal && argument.isNormal) := by
  cases function with
  | bind kind domain body =>
      cases kind with
      | lambda => simp [isLambda] at notLambda
      | pi => rfl
  | _ => rfl

theorem leftmost_eq_none_iff (term : Nameless) : term.leftmost = none ↔ term.isNormal = true := by
  induction term with
  | sort => simp [leftmost, isNormal]
  | bound depth => simp [leftmost, isNormal]
  | free name => simp [leftmost, isNormal]
  | app function argument functionIH argumentIH =>
      obtain ⟨domain, body, rfl⟩ | notLambda := function.lambda_or_not
      · simp [leftmost, isNormal]
      · rw [leftmost_app argument notLambda, isNormal_app argument notLambda, Bool.and_eq_true,
          ← functionIH, ← argumentIH]
        cases function.leftmost <;> simp
  | bind kind domain body domainIH bodyIH =>
      rw [leftmost, isNormal, Bool.and_eq_true, ← domainIH, ← bodyIH]
      cases domain.leftmost <;> simp

def afterLeftmost : Nat → Nameless → Option Nameless
  | 0, term => some term
  | count + 1, term => term.leftmost.bind (afterLeftmost count)

end Nameless

namespace Term

def isLambda : Term → Bool
  | .bind .lambda _ _ _ _ => true
  | _ => false

theorem lambda_or_not (term : Term) :
    (∃ name domain body place, term = .bind .lambda name domain body place) ∨
      term.isLambda = false := by
  cases term with
  | bind kind name domain body place =>
      cases kind with
      | lambda => exact .inl ⟨name, domain, body, place, rfl⟩
      | pi => exact .inr rfl
  | _ => exact .inr rfl

def contractLeftmost : Term → NameSupply → Option (Term × NameSupply)
  | .app (.bind .lambda name _ body _) argument _, supply =>
      some (body.substituteAvoiding name argument supply)
  | .app function argument place, supply =>
      match function.contractLeftmost supply with
      | some (next, supply) => some (.app next argument place, supply)
      | none =>
          (argument.contractLeftmost supply).map fun next => (.app function next.1 place, next.2)
  | .bind kind name domain body place, supply =>
      match domain.contractLeftmost supply with
      | some (next, supply) => some (.bind kind name next body place, supply)
      | none =>
          (body.contractLeftmost supply).map
            fun next => (.bind kind name domain next.1 place, next.2)
  | _, _ => none

theorem contractLeftmost_app {function : Term} (argument : Term) (place : Option Location)
    (notLambda : function.isLambda = false) (supply : NameSupply) :
    (Term.app function argument place).contractLeftmost supply =
      match function.contractLeftmost supply with
      | some (next, supply) => some (.app next argument place, supply)
      | none =>
          (argument.contractLeftmost supply).map
            fun next => (.app function next.1 place, next.2) := by
  cases function with
  | bind kind name domain body place =>
      cases kind with
      | lambda => simp [isLambda] at notLambda
      | pi => rfl
  | _ => rfl

theorem isLambda_namelessUnder (term : Term) (binders : List String) :
    (term.namelessUnder binders).isLambda = term.isLambda := by
  cases term with
  | var name place =>
      simp only [namelessUnder]
      split <;> rfl
  | bind kind name domain body place => cases kind <;> rfl
  | _ => rfl

theorem namelessUnder_contractLeftmost (term : Term) (supply : NameSupply)
    (binders : List String) :
    (term.contractLeftmost supply).map (fun next => next.1.namelessUnder binders) =
      (term.namelessUnder binders).leftmost := by
  induction term generalizing binders with
  | sort place => rfl
  | var name place =>
      simp only [contractLeftmost, namelessUnder, Option.map_none]
      split <;> rfl
  | app function argument place functionIH argumentIH =>
      obtain ⟨name, domain, body, place, rfl⟩ | notLambda := function.lambda_or_not
      · simp only [contractLeftmost, Option.map_some, namelessUnder, Nameless.leftmost,
          namelessUnder_substituteAvoiding]
      · rw [contractLeftmost_app argument place notLambda, namelessUnder,
          Nameless.leftmost_app _ (by rw [isLambda_namelessUnder, notLambda]),
          ← functionIH, ← argumentIH]
        cases function.contractLeftmost supply with
        | some next => rfl
        | none => cases argument.contractLeftmost supply <;> rfl
  | bind kind name domain body place domainIH bodyIH =>
      rw [contractLeftmost, namelessUnder, Nameless.leftmost, ← domainIH, ← bodyIH]
      cases domain.contractLeftmost supply with
      | some next => rfl
      | none => cases body.contractLeftmost supply <;> rfl

theorem isNormal_app {function : Term} (argument : Term) (place : Option Location)
    (notLambda : function.isLambda = false) :
    (Term.app function argument place).isNormal = (function.isNormal && argument.isNormal) := by
  cases function with
  | bind kind name domain body place =>
      cases kind with
      | lambda => simp [isLambda] at notLambda
      | pi => rfl
  | _ => rfl

theorem isNormal_namelessUnder (term : Term) (binders : List String) :
    (term.namelessUnder binders).isNormal = term.isNormal := by
  induction term generalizing binders with
  | sort place => rfl
  | var name place =>
      simp only [namelessUnder]
      split <;> rfl
  | app function argument place functionIH argumentIH =>
      obtain ⟨name, domain, body, place, rfl⟩ | notLambda := function.lambda_or_not
      · rfl
      · rw [isNormal_app argument place notLambda, namelessUnder,
          Nameless.isNormal_app _ (by rw [isLambda_namelessUnder, notLambda]), functionIH,
          argumentIH]
  | bind kind name domain body place domainIH bodyIH =>
      simp only [namelessUnder, Nameless.isNormal, isNormal, domainIH, bodyIH]

theorem contractLeftmost_eq_none_iff (term : Term) (supply : NameSupply) :
    term.contractLeftmost supply = none ↔ term.isNormal = true := by
  rw [← isNormal_namelessUnder term [], ← Nameless.leftmost_eq_none_iff,
    ← namelessUnder_contractLeftmost term supply, Option.map_eq_none_iff]

end Term

end TypeInType
