import Mathlib.Logic.Relation
import TypeInType.Proofs.NormalOrder

/-!
Convertibility. A development contracts any choice of the redexes that stand in a
term, all at once, and the one that takes them all is reached from every other by
one more development. So developments have the diamond property, convertible
terms have a common reduct, and two normal forms are convertible only if they are
the same.
-/

namespace TypeInType

namespace Nameless

inductive Contracts : Nameless → Nameless → Prop
  | redex (domain body argument : Nameless) :
      Contracts (.app (.bind .lambda domain body) argument) (body.instantiate argument)
  | function {function next : Nameless} (argument : Nameless) :
      Contracts function next → Contracts (.app function argument) (.app next argument)
  | argument (function : Nameless) {argument next : Nameless} :
      Contracts argument next → Contracts (.app function argument) (.app function next)
  | domain (kind : BinderKind) {domain next : Nameless} (body : Nameless) :
      Contracts domain next → Contracts (.bind kind domain body) (.bind kind next body)
  | body (kind : BinderKind) (domain : Nameless) {body next : Nameless} :
      Contracts body next → Contracts (.bind kind domain body) (.bind kind domain next)

/-- Any choice of the redexes of a term is contracted at once. -/
inductive Develops : Nameless → Nameless → Prop
  | sort : Develops .sort .sort
  | bound (depth : Nat) : Develops (.bound depth) (.bound depth)
  | free (name : String) : Develops (.free name) (.free name)
  | app {function function' argument argument' : Nameless} :
      Develops function function' → Develops argument argument' →
        Develops (.app function argument) (.app function' argument')
  | bind (kind : BinderKind) {domain domain' body body' : Nameless} :
      Develops domain domain' → Develops body body' →
        Develops (.bind kind domain body) (.bind kind domain' body')
  | redex (domain : Nameless) {body body' argument argument' : Nameless} :
      Develops body body' → Develops argument argument' →
        Develops (.app (.bind .lambda domain body) argument) (body'.instantiate argument')

theorem Develops.refl (term : Nameless) : Develops term term := by
  induction term with
  | sort => exact .sort
  | bound depth => exact .bound depth
  | free name => exact .free name
  | app function argument functionIH argumentIH => exact .app functionIH argumentIH
  | bind kind domain body domainIH bodyIH => exact .bind kind domainIH bodyIH

theorem Contracts.develops {term next : Nameless} (step : Contracts term next) :
    Develops term next := by
  induction step with
  | redex domain body argument => exact .redex domain (.refl body) (.refl argument)
  | function argument _ ih => exact .app ih (.refl argument)
  | argument function _ ih => exact .app (.refl function) ih
  | domain kind body _ ih => exact .bind kind ih (.refl body)
  | body kind domain _ ih => exact .bind kind (.refl domain) ih

theorem relabel_instantiate (label : Nat → Nat) (body argument : Nameless) :
    (body.instantiate argument).relabel label =
      (body.relabel (liftLabel label)).instantiate (argument.relabel label) := by
  have lifted : lift (Nameless.bound ∘ label) = Nameless.bound ∘ liftLabel label := by
    funext depth
    cases depth <;> rfl
  simp only [relabel_eq_fill, fill_instantiate, lifted]
  rfl

theorem Develops.relabel {term next : Nameless} (step : Develops term next) (label : Nat → Nat) :
    Develops (term.relabel label) (next.relabel label) := by
  induction step generalizing label with
  | sort => exact .sort
  | bound depth => exact .bound (label depth)
  | free name => exact .free name
  | app _ _ functionIH argumentIH => exact .app (functionIH label) (argumentIH label)
  | bind kind _ _ domainIH bodyIH => exact .bind kind (domainIH label) (bodyIH (liftLabel label))
  | redex domain _ _ bodyIH argumentIH =>
      rw [relabel_instantiate]
      exact .redex _ (bodyIH (liftLabel label)) (argumentIH label)

theorem Develops.fill {term next : Nameless} (step : Develops term next)
    {indices indices' : Nat → Nameless} {names names' : String → Nameless}
    (atIndices : ∀ depth, Develops (indices depth) (indices' depth))
    (atNames : ∀ name, Develops (names name) (names' name)) :
    Develops (term.fill indices names) (next.fill indices' names') := by
  have lifted : ∀ {indices indices' : Nat → Nameless},
      (∀ depth, Develops (indices depth) (indices' depth)) →
        ∀ depth, Develops (lift indices depth) (lift indices' depth) := by
    intro indices indices' each depth
    cases depth with
    | zero => exact .bound 0
    | succ depth => exact (each depth).relabel Nat.succ
  induction step generalizing indices indices' names names' with
  | sort => exact .sort
  | bound depth => exact atIndices depth
  | free name => exact atNames name
  | app _ _ functionIH argumentIH =>
      exact .app (functionIH atIndices atNames) (argumentIH atIndices atNames)
  | bind kind _ _ domainIH bodyIH =>
      exact .bind kind (domainIH atIndices atNames)
        (bodyIH (lifted atIndices) fun name => (atNames name).relabel Nat.succ)
  | redex domain _ _ bodyIH argumentIH =>
      rw [fill_instantiate]
      exact .redex _ (bodyIH (lifted atIndices) fun name => (atNames name).relabel Nat.succ)
        (argumentIH atIndices atNames)

theorem Develops.instantiate {body body' argument argument' : Nameless}
    (inBody : Develops body body') (inArgument : Develops argument argument') :
    Develops (body.instantiate argument) (body'.instantiate argument') := by
  apply inBody.fill
  · intro depth
    cases depth with
    | zero => exact inArgument
    | succ depth => exact .bound depth
  · exact .free

def developed : Nameless → Nameless
  | .app (.bind .lambda _ body) argument => body.developed.instantiate argument.developed
  | .app function argument => .app function.developed argument.developed
  | .bind kind domain body => .bind kind domain.developed body.developed
  | term => term

theorem developed_app {function : Nameless} (argument : Nameless)
    (notLambda : function.isLambda = false) :
    (Nameless.app function argument).developed =
      .app function.developed argument.developed := by
  cases function with
  | bind kind domain body =>
      cases kind with
      | lambda => simp [isLambda] at notLambda
      | pi => rfl
  | _ => rfl

/-- Whatever was developed, developing what is left gives the full development. -/
theorem Develops.triangle {term next : Nameless} (step : Develops term next) :
    Develops next term.developed := by
  induction step with
  | sort => exact .sort
  | bound depth => exact .bound depth
  | free name => exact .free name
  | @app function function' argument argument' inFunction _ functionIH argumentIH =>
      obtain ⟨domain, body, rfl⟩ | notLambda := function.lambda_or_not
      -- A redex at the root that was left alone: it is still there to be contracted.
      · cases inFunction with
        | bind _ inDomain inBody =>
            cases functionIH with
            | bind _ _ bodyIH => exact .redex _ bodyIH argumentIH
      · rw [developed_app argument notLambda]
        exact .app functionIH argumentIH
  | bind kind _ _ domainIH bodyIH => exact .bind kind domainIH bodyIH
  | redex domain _ _ bodyIH argumentIH => exact bodyIH.instantiate argumentIH

theorem Develops.diamond {term left right : Nameless} (toLeft : Develops term left)
    (toRight : Develops term right) : ∃ common, Develops left common ∧ Develops right common :=
  ⟨term.developed, toLeft.triangle, toRight.triangle⟩

theorem eq_of_develops_normal {term next : Nameless} (step : Develops term next)
    (normal : term.isNormal = true) : next = term := by
  induction step with
  | sort => rfl
  | bound depth => rfl
  | free name => rfl
  | @app function function' argument argument' _ _ functionIH argumentIH =>
      obtain ⟨domain, body, rfl⟩ | notLambda := function.lambda_or_not
      · simp [isNormal] at normal
      · rw [isNormal_app argument notLambda, Bool.and_eq_true] at normal
        rw [functionIH normal.1, argumentIH normal.2]
  | bind kind _ _ domainIH bodyIH =>
      rw [isNormal, Bool.and_eq_true] at normal
      rw [domainIH normal.1, bodyIH normal.2]
  | redex domain _ _ _ _ => simp [isNormal] at normal

theorem eq_of_developments_normal {term next : Nameless}
    (steps : Relation.ReflTransGen Develops term next) (normal : term.isNormal = true) :
    next = term := by
  induction steps with
  | refl => rfl
  | tail _ step ih =>
      subst ih
      exact eq_of_develops_normal step normal

theorem common_reduct {left right : Nameless} (convertible : Relation.EqvGen Contracts left right) :
    Relation.Join (Relation.ReflTransGen Develops) left right := by
  -- Confluence: by the diamond, having a common reduct is transitive.
  have joins : Equivalence (Relation.Join (Relation.ReflTransGen Develops)) := by
    apply Relation.equivalence_join_reflTransGen
    intro term left right toLeft toRight
    obtain ⟨common, fromLeft, fromRight⟩ := toLeft.diamond toRight
    exact ⟨common, .single fromLeft, .single fromRight⟩
  induction convertible with
  | rel left right step => exact ⟨right, .single step.develops, .refl⟩
  | refl term => exact joins.refl term
  | symm left right _ ih => exact joins.symm ih
  | trans left middle right _ _ leftIH rightIH => exact joins.trans leftIH rightIH

theorem eq_of_convertible_normal {left right : Nameless}
    (convertible : Relation.EqvGen Contracts left right) (leftNormal : left.isNormal = true)
    (rightNormal : right.isNormal = true) : left = right := by
  obtain ⟨common, fromLeft, fromRight⟩ := common_reduct convertible
  rw [← eq_of_developments_normal fromLeft leftNormal,
    eq_of_developments_normal fromRight rightNormal]

theorem contracts_of_leftmost {term next : Nameless} (step : term.leftmost = some next) :
    Contracts term next := by
  induction term generalizing next with
  | app function argument functionIH argumentIH =>
      obtain ⟨domain, body, rfl⟩ | notLambda := function.lambda_or_not
      · cases step
        exact .redex domain body argument
      · rw [leftmost_app argument notLambda] at step
        cases inner : function.leftmost with
        | some first =>
            rw [inner] at step
            cases step
            exact .function argument (functionIH inner)
        | none =>
            rw [inner, Option.map_eq_some_iff] at step
            obtain ⟨second, found, rfl⟩ := step
            exact .argument function (argumentIH found)
  | bind kind domain body domainIH bodyIH =>
      rw [leftmost] at step
      cases inner : domain.leftmost with
      | some first =>
          rw [inner] at step
          cases step
          exact .domain kind body (domainIH inner)
      | none =>
          rw [inner, Option.map_eq_some_iff] at step
          obtain ⟨second, found, rfl⟩ := step
          exact .body kind domain (bodyIH found)
  | _ => cases step

end Nameless

/-- Terms are convertible when contractions anywhere, forwards and backwards, and
changes of bound names lead from one to the other. -/
def BetaConvertible : Term → Term → Prop :=
  Relation.EqvGen fun left right =>
    left.nameless = right.nameless ∨ left.nameless.Contracts right.nameless

theorem convertible_nameless {left right : Term} (convertible : BetaConvertible left right) :
    Relation.EqvGen Nameless.Contracts left.nameless right.nameless := by
  induction convertible with
  | rel left right step =>
      rcases step with same | step
      · rw [same]
        exact .refl _
      · exact .rel _ _ step
  | refl term => exact .refl _
  | symm left right _ ih => exact .symm _ _ ih
  | trans left middle right _ _ leftIH rightIH => exact .trans _ _ _ leftIH rightIH

theorem contracts_of_contractLeftmost {term next : Term} {supply after : NameSupply}
    (step : term.contractLeftmost supply = some (next, after)) :
    term.nameless.Contracts next.nameless := by
  apply Nameless.contracts_of_leftmost
  rw [Term.nameless, ← Term.namelessUnder_contractLeftmost term supply, step]
  rfl

/-- Every stage of a reduction is a named term, so the way to the normal form stays
among named terms. -/
theorem reduce_spec {context term result : Term} {limit : Int}
    (returned : reduce context term limit = .ok result) :
    BetaConvertible term result ∧ result.nameless.isNormal = true := by
  rw [Term.nameless, Term.isNormal_namelessUnder]
  refine reduce_keeps (BetaConvertible term) ?_ (.refl term) returned
  intro reached supply next after before step
  exact .trans _ _ _ before (.rel _ _ (.inr (contracts_of_contractLeftmost step)))

/-- When both sides reduce, under whatever contexts and limits, comparing the
results up to bound names decides whether the terms are convertible. -/
theorem comparison_decides_convertibility {left right leftContext rightContext : Term}
    {leftLimit rightLimit : Int} {leftResult rightResult : Term}
    (leftReturns : reduce leftContext left leftLimit = .ok leftResult)
    (rightReturns : reduce rightContext right rightLimit = .ok rightResult) :
    leftResult.alphaEquivalent [] rightResult = true ↔ BetaConvertible left right := by
  obtain ⟨toLeft, leftNormal⟩ := reduce_spec leftReturns
  obtain ⟨toRight, rightNormal⟩ := reduce_spec rightReturns
  rw [Term.alphaEquivalent_nil_iff]
  constructor
  · intro same
    exact .trans _ _ _ toLeft (.trans _ _ _ (.rel _ _ (.inl same)) (.symm _ _ toRight))
  · intro convertible
    have results : BetaConvertible leftResult rightResult :=
      .trans _ _ _ (.symm _ _ toLeft) (.trans _ _ _ convertible toRight)
    exact Nameless.eq_of_convertible_normal (convertible_nameless results) leftNormal rightNormal

/-- On the left a binder must be renamed on the way, `y` being free in the argument. -/
theorem convertible_constant_functions :
    let identity : Term := .lam "w" (.sort none) (.var "w" none) none
    let chooseFirst : Term :=
      .lam "x" (.sort none) (.lam "y" (.sort none) (.var "x" none) none) none
    let left : Term := .app chooseFirst (.var "y" none) none
    let right : Term := .lam "z" (.sort none) (.app identity (.var "y" none) none) none
    ∃ leftResult rightResult, reduce (.sort none) left 1 = .ok leftResult ∧
      reduce (.var "z" none) right 5 = .ok rightResult ∧ BetaConvertible left right := by
  intro identity chooseFirst left right
  obtain ⟨leftResult, leftReturns, leftReads⟩ :=
    (reduce_ok_iff (.sort none) left 1 [] (.bind .lambda .sort (.free "y"))).mpr
      ⟨1, by decide, by decide, rfl⟩
  obtain ⟨rightResult, rightReturns, rightReads⟩ :=
    (reduce_ok_iff (.var "z" none) right 5 [] (.bind .lambda .sort (.free "y"))).mpr
      ⟨1, by decide, by decide, rfl⟩
  have same : leftResult.alphaEquivalent [] rightResult = true := by
    rw [Term.alphaEquivalent_nil_iff]
    exact leftReads.trans rightReads.symm
  exact ⟨leftResult, rightResult, leftReturns, rightReturns,
    (comparison_decides_convertibility leftReturns rightReturns).mp same⟩

end TypeInType
