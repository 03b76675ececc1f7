import TypeInType.Proofs.Leftmost

/-!
Runs of contractions. `exhaust` contracts one redex after the other while there
is one and the budget lasts. The recursive reducer, which first clears the head
of a term and then walks into its parts, makes the very same contractions: it is
`exhaust` of the leftmost outermost one.
-/

namespace TypeInType

namespace Stage

abbrev Contraction := Term → NameSupply → Option (Term × NameSupply)

/-- Contracts until nothing is left to contract, or fails when the budget is
spent before that. -/
def exhaust (contract : Contraction) (budget : Nat) (term : Term) (supply : NameSupply) :
    Option Stage :=
  match contract term supply with
  | none => some ⟨term, budget, supply⟩
  | some (next, supply) =>
      match budget with
      | 0 => none
      | left + 1 => exhaust contract left next supply

theorem exhaust_none {contract : Contraction} {term : Term} {supply : NameSupply}
    (done : contract term supply = none) (budget : Nat) :
    exhaust contract budget term supply = some ⟨term, budget, supply⟩ := by
  unfold exhaust
  rw [done]

theorem exhaust_zero {contract : Contraction} {term next : Term} {supply after : NameSupply}
    (step : contract term supply = some (next, after)) :
    exhaust contract 0 term supply = none := by
  unfold exhaust
  rw [step]

theorem exhaust_succ {contract : Contraction} {term next : Term} {supply after : NameSupply}
    (step : contract term supply = some (next, after)) (left : Nat) :
    exhaust contract (left + 1) term supply = exhaust contract left next after := by
  rw [exhaust, step]

/-- What every contraction keeps, of the term and of the names in use, holds at the end, where
nothing can be contracted. -/
theorem exhaust_invariant {contract : Contraction} (kept : Term → NameSupply → Prop)
    (keeps : ∀ {term supply next after}, kept term supply →
      contract term supply = some (next, after) → kept next after)
    {budget : Nat} {term : Term} {supply : NameSupply} {stage : Stage} (start : kept term supply)
    (reached : exhaust contract budget term supply = some stage) :
    kept stage.term stage.supply ∧ contract stage.term stage.supply = none := by
  induction budget generalizing term supply with
  | zero =>
      cases step : contract term supply with
      | none =>
          rw [exhaust_none step] at reached
          cases reached
          exact ⟨start, step⟩
      | some next =>
          rw [exhaust_zero step] at reached
          cases reached
  | succ left ih =>
      cases step : contract term supply with
      | none =>
          rw [exhaust_none step] at reached
          cases reached
          exact ⟨start, step⟩
      | some next =>
          rw [exhaust_succ step] at reached
          exact ih (keeps start step) reached

theorem exhaust_keeps {contract : Contraction} (kept : Term → Prop)
    (keeps : ∀ {term supply next after}, kept term →
      contract term supply = some (next, after) → kept next)
    {budget : Nat} {term : Term} {supply : NameSupply} {stage : Stage} (start : kept term)
    (reached : exhaust contract budget term supply = some stage) :
    kept stage.term ∧ contract stage.term stage.supply = none := by
  have ended := exhaust_invariant (fun term _ => kept term) keeps start reached
  exact ended

/-- If a part of a term is the place of the first contractions of the whole, its
own run comes first and the run of the whole goes on from there. -/
theorem exhaust_part {whole part : Contraction} (wrap : Term → Term) (kept : Term → Prop)
    (keeps : ∀ {term supply next after}, kept term →
      part term supply = some (next, after) → kept next)
    (inside : ∀ {term supply next after}, kept term →
      part term supply = some (next, after) →
        whole (wrap term) supply = some (wrap next, after))
    (budget : Nat) (term : Term) (supply : NameSupply) (start : kept term) :
    exhaust whole budget (wrap term) supply =
      (exhaust part budget term supply).bind fun stage =>
        exhaust whole stage.budget (wrap stage.term) stage.supply := by
  induction budget generalizing term supply with
  | zero =>
      cases step : part term supply with
      | none => rw [exhaust_none step, Option.bind_some]
      -- The part fails, and so does the whole, with the same contraction ahead of it.
      | some next => rw [exhaust_zero step, exhaust_zero (inside start step), Option.bind_none]
  | succ left ih =>
      cases step : part term supply with
      | none => rw [exhaust_none step, Option.bind_some]
      | some next =>
          rw [exhaust_succ step, exhaust_succ (inside start step), ih _ _ (keeps start step)]

end Stage

namespace Term

def contractHead : Term → NameSupply → Option (Term × NameSupply)
  | .app (.bind .lambda name _ body _) argument _, supply =>
      some (body.substituteAvoiding name argument supply)
  | .app function argument place, supply =>
      (function.contractHead supply).map fun next => (.app next.1 argument place, next.2)
  | _, _ => none

/-- A head that is no lambda abstraction and will never become one. -/
def isRigid : Term → Bool
  | .bind .lambda _ _ _ _ => false
  | .app function _ _ => function.isRigid
  | _ => true

theorem contractHead_app {function : Term} (argument : Term) (place : Option Location)
    (notLambda : function.isLambda = false) (supply : NameSupply) :
    (Term.app function argument place).contractHead supply =
      (function.contractHead supply).map fun next => (.app next.1 argument place, next.2) := by
  cases function with
  | bind kind name domain body place =>
      cases kind with
      | lambda => simp [isLambda] at notLambda
      | pi => rfl
  | _ => rfl

theorem notLambda_of_contractHead {term : Term} {supply : NameSupply} {next : Term × NameSupply}
    (step : term.contractHead supply = some next) : term.isLambda = false := by
  cases term with
  | app function argument place => rfl
  | _ => simp [contractHead] at step

theorem isRigid_of_stuck {term : Term} {supply : NameSupply} (notLambda : term.isLambda = false)
    (stuck : term.contractHead supply = none) : term.isRigid = true := by
  induction term with
  | sort place => rfl
  | var name place => rfl
  | app function argument place functionIH argumentIH =>
      obtain ⟨name, domain, body, place, rfl⟩ | notLambda := function.lambda_or_not
      · simp [contractHead] at stuck
      · rw [contractHead_app argument place notLambda, Option.map_eq_none_iff] at stuck
        exact functionIH notLambda stuck
  | bind kind name domain body place domainIH bodyIH =>
      cases kind with
      | lambda => simp [isLambda] at notLambda
      | pi => rfl

theorem notLambda_of_isRigid {term : Term} (rigid : term.isRigid = true) :
    term.isLambda = false := by
  cases term with
  | bind kind name domain body place =>
      cases kind with
      | lambda => simp [isRigid] at rigid
      | pi => rfl
  | _ => rfl

theorem isRigid_contractLeftmost {term next : Term} {supply after : NameSupply}
    (rigid : term.isRigid = true) (step : term.contractLeftmost supply = some (next, after)) :
    next.isRigid = true := by
  induction term generalizing next after with
  | sort place => simp [contractLeftmost] at step
  | var name place => simp [contractLeftmost] at step
  | app function argument place functionIH argumentIH =>
      rw [isRigid] at rigid
      rw [contractLeftmost_app argument place (notLambda_of_isRigid rigid)] at step
      cases inner : function.contractLeftmost supply with
      | some first =>
          rw [inner] at step
          cases step
          show first.1.isRigid = true
          exact functionIH rigid inner
      | none =>
          rw [inner, Option.map_eq_some_iff] at step
          obtain ⟨second, _, same⟩ := step
          cases same
          exact rigid
  | bind kind name domain body place domainIH bodyIH =>
      have kept : ∀ domain body, (Term.bind kind name domain body place).isRigid = true := by
        intro _ _
        cases kind with
        | lambda => simp [isRigid] at rigid
        | pi => rfl
      rw [contractLeftmost] at step
      cases inner : domain.contractLeftmost supply with
      | some first =>
          rw [inner] at step
          cases step
          exact kept _ _
      | none =>
          rw [inner, Option.map_eq_some_iff] at step
          obtain ⟨second, _, same⟩ := step
          cases same
          exact kept _ _

theorem contractLeftmost_of_contractHead {term : Term} {supply : NameSupply}
    {next : Term × NameSupply} (step : term.contractHead supply = some next) :
    term.contractLeftmost supply = some next := by
  induction term generalizing next with
  | app function argument place functionIH argumentIH =>
      obtain ⟨name, domain, body, place, rfl⟩ | notLambda := function.lambda_or_not
      · exact step
      · rw [contractHead_app argument place notLambda, Option.map_eq_some_iff] at step
        obtain ⟨first, inner, rfl⟩ := step
        rw [contractLeftmost_app argument place notLambda, functionIH inner]
  | _ => simp [contractHead] at step

end Term

namespace Stage

theorem exhaust_contractHead_app (budget : Nat) (function argument : Term)
    (place : Option Location) (supply : NameSupply) :
    exhaust Term.contractHead budget (.app function argument place) supply =
      (exhaust Term.contractHead budget function supply).bind fun stage =>
        exhaust Term.contractHead stage.budget (.app stage.term argument place) stage.supply := by
  refine exhaust_part (fun part => .app part argument place) (fun _ => True)
    (fun _ _ => trivial) ?_ budget function supply trivial
  intro term supply next after _ step
  rw [Term.contractHead_app argument place (Term.notLambda_of_contractHead step), step]
  rfl

theorem exhaust_contractHead_redex (name : String) (domain body : Term)
    (binderPlace : Option Location) (argument : Term) (place : Option Location) (budget : Nat)
    (supply : NameSupply) :
    exhaust Term.contractHead budget
        (.app (.bind .lambda name domain body binderPlace) argument place) supply =
      (contract? name body argument budget supply).bind fun stage =>
        exhaust Term.contractHead stage.budget stage.term stage.supply := by
  have step : Term.contractHead (.app (.bind .lambda name domain body binderPlace) argument place)
      supply = some (body.substituteAvoiding name argument supply) := rfl
  cases budget with
  | zero => exact exhaust_zero step
  | succ left => exact exhaust_succ step left

theorem exhaust_contractHead_done {budget : Nat} {term : Term} {supply : NameSupply}
    {stage : Stage} (reached : exhaust Term.contractHead budget term supply = some stage) :
    stage.term.contractHead stage.supply = none :=
  (exhaust_keeps (fun _ => True) (fun _ _ => trivial) trivial reached).2

theorem headNormal_eq_exhaust (start : Stage) :
    start.headNormal.map Subtype.val =
      exhaust Term.contractHead start.budget start.term start.supply := by
  fun_induction headNormal start with
  -- In each case the run of the application is the run of its function, continued.
  | case1 function argument place budget supply failed functionIH =>
      rw [failed, Option.map_none] at functionIH
      rw [exhaust_contractHead_app, ← functionIH]
      rfl
  | case2 function argument place budget supply head reached name domain body binderPlace shape
      failed functionIH =>
      rw [reached, Option.map_some] at functionIH
      rw [exhaust_contractHead_app, ← functionIH, Option.bind_some, shape,
        exhaust_contractHead_redex, failed]
      rfl
  | case3 function argument place budget supply head reached name domain body binderPlace shape
      stage contracted failed functionIH stageIH =>
      rw [reached, Option.map_some] at functionIH
      rw [failed, Option.map_none] at stageIH
      rw [exhaust_contractHead_app, ← functionIH, Option.bind_some, shape,
        exhaust_contractHead_redex, contracted, Option.bind_some, ← stageIH]
      rfl
  | case4 function argument place budget supply head reached name domain body binderPlace shape
      stage contracted last found functionIH stageIH =>
      rw [reached, Option.map_some] at functionIH
      rw [found, Option.map_some] at stageIH
      rw [exhaust_contractHead_app, ← functionIH, Option.bind_some, shape,
        exhaust_contractHead_redex, contracted, Option.bind_some, ← stageIH]
      rfl
  | case5 function argument place budget supply head reached shape functionIH =>
      rw [reached, Option.map_some] at functionIH
      have notLambda : head.1.term.isLambda = false := by
        obtain ⟨name, domain, body, binderPlace, same⟩ | notLambda := head.1.term.lambda_or_not
        · exact (shape name domain body binderPlace same).elim
        · exact notLambda
      have stuck : (Term.app head.1.term argument place).contractHead head.1.supply = none := by
        rw [Term.contractHead_app argument place notLambda,
          exhaust_contractHead_done functionIH.symm]
        rfl
      rw [exhaust_contractHead_app, ← functionIH, Option.bind_some, exhaust_none stuck]
      rfl
  | case6 start notApp =>
      obtain ⟨term, budget, supply⟩ := start
      have stuck : term.contractHead supply = none := by
        cases term with
        | app function argument place =>
            exact (notApp function argument place budget supply rfl).elim
        | _ => rfl
      exact (exhaust_none stuck budget).symm

/-! After the head the parts: a rigid function stays rigid, so its redexes and
then those of its argument are the leftmost ones of the application. -/

theorem exhaust_after_head (budget : Nat) (term : Term) (supply : NameSupply) :
    exhaust Term.contractLeftmost budget term supply =
      (exhaust Term.contractHead budget term supply).bind fun stage =>
        exhaust Term.contractLeftmost stage.budget stage.term stage.supply :=
  exhaust_part id (fun _ => True) (fun _ _ => trivial)
    (fun _ step => Term.contractLeftmost_of_contractHead step) budget term supply trivial

theorem exhaust_contractLeftmost_done {budget : Nat} {term : Term} {supply : NameSupply}
    {stage : Stage} (reached : exhaust Term.contractLeftmost budget term supply = some stage) :
    stage.term.isNormal = true := by
  rw [← Term.contractLeftmost_eq_none_iff stage.term stage.supply]
  exact (exhaust_keeps (fun _ => True) (fun _ _ => trivial) trivial reached).2

theorem exhaust_app (budget : Nat) (function argument : Term) (place : Option Location)
    (supply : NameSupply) (rigid : function.isRigid = true) :
    exhaust Term.contractLeftmost budget (.app function argument place) supply =
      (exhaust Term.contractLeftmost budget function supply).bind fun first =>
        (exhaust Term.contractLeftmost first.budget argument first.supply).bind fun second =>
          some ⟨.app first.term second.term place, second.budget, second.supply⟩ := by
  rw [exhaust_part (fun part => .app part argument place) (fun part => part.isRigid = true)
    Term.isRigid_contractLeftmost ?_ budget function supply rigid]
  · apply Option.bind_congr
    intro first reached
    have firstRigid := (exhaust_keeps (fun part => part.isRigid = true)
      Term.isRigid_contractLeftmost rigid reached).1
    have firstNormal := exhaust_contractLeftmost_done reached
    have notLambda := Term.notLambda_of_isRigid firstRigid
    rw [exhaust_part (fun part => .app first.term part place) (fun _ => True)
      (fun _ _ => trivial) ?_ first.budget argument first.supply trivial]
    · apply Option.bind_congr
      intro second reached
      apply exhaust_none
      rw [Term.contractLeftmost_eq_none_iff, Term.isNormal_app second.term place notLambda,
        firstNormal, exhaust_contractLeftmost_done reached]
      rfl
    · intro term supply next after _ step
      rw [Term.contractLeftmost_app term place notLambda,
        (Term.contractLeftmost_eq_none_iff first.term supply).mpr firstNormal, step]
      rfl
  -- A function that became a lambda abstraction would end its own run too early.
  · intro term supply next after kept step
    rw [Term.contractLeftmost_app argument place (Term.notLambda_of_isRigid kept), step]

theorem exhaust_bind (budget : Nat) (kind : BinderKind) (name : String) (domain body : Term)
    (place : Option Location) (supply : NameSupply) :
    exhaust Term.contractLeftmost budget (.bind kind name domain body place) supply =
      (exhaust Term.contractLeftmost budget domain supply).bind fun first =>
        (exhaust Term.contractLeftmost first.budget body first.supply).bind fun second =>
          some ⟨.bind kind name first.term second.term place, second.budget, second.supply⟩ := by
  rw [exhaust_part (fun part => .bind kind name part body place) (fun _ => True)
    (fun _ _ => trivial) ?_ budget domain supply trivial]
  · apply Option.bind_congr
    intro first reached
    have firstNormal := exhaust_contractLeftmost_done reached
    rw [exhaust_part (fun part => .bind kind name first.term part place) (fun _ => True)
      (fun _ _ => trivial) ?_ first.budget body first.supply trivial]
    · apply Option.bind_congr
      intro second reached
      apply exhaust_none
      rw [Term.contractLeftmost_eq_none_iff, Term.isNormal, firstNormal,
        exhaust_contractLeftmost_done reached]
      rfl
    · intro term supply next after _ step
      rw [Term.contractLeftmost,
        (Term.contractLeftmost_eq_none_iff first.term supply).mpr firstNormal, step]
      rfl
  · intro term supply next after _ step
    rw [Term.contractLeftmost, step]

theorem exhaust_from_head {start : Stage} {head : start.After}
    (reached : start.headNormal = some head) :
    exhaust Term.contractLeftmost start.budget start.term start.supply =
      exhaust Term.contractLeftmost head.1.budget head.1.term head.1.supply := by
  rw [exhaust_after_head, ← headNormal_eq_exhaust, reached]
  rfl

theorem function_rigid {start : Stage} {head : start.After} {function argument : Term}
    {place : Option Location} (reached : start.headNormal = some head)
    (shape : head.1.term = .app function argument place) : function.isRigid = true := by
  have spec := headNormal_eq_exhaust start
  rw [reached, Option.map_some] at spec
  have stuck := exhaust_contractHead_done spec.symm
  rw [shape] at stuck
  have rigid : (Term.app function argument place).isRigid = true := Term.isRigid_of_stuck rfl stuck
  exact rigid

/-- The reducer contracts the leftmost outermost redex until none is left. -/
theorem normalize_eq_exhaust (start : Stage) :
    start.normalize.map Subtype.val =
      exhaust Term.contractLeftmost start.budget start.term start.supply := by
  -- Head first, then the parts from left to right; a failure anywhere is one of the whole.
  fun_induction normalize start with
  | case1 start failed =>
      rw [exhaust_after_head, ← headNormal_eq_exhaust, failed]
      rfl
  | case2 start head reached function argument place shape failed functionIH =>
      rw [failed, Option.map_none] at functionIH
      rw [exhaust_from_head reached, shape,
        exhaust_app _ _ _ _ _ (function_rigid reached shape), ← functionIH]
      rfl
  | case3 start head reached function argument place shape first found failed functionIH
      argumentIH =>
      rw [found, Option.map_some] at functionIH
      rw [failed, Option.map_none] at argumentIH
      rw [exhaust_from_head reached, shape,
        exhaust_app _ _ _ _ _ (function_rigid reached shape), ← functionIH, Option.bind_some,
        ← argumentIH]
      rfl
  | case4 start head reached function argument place shape first found second foundLast functionIH
      argumentIH =>
      rw [found, Option.map_some] at functionIH
      rw [foundLast, Option.map_some] at argumentIH
      rw [exhaust_from_head reached, shape,
        exhaust_app _ _ _ _ _ (function_rigid reached shape), ← functionIH, Option.bind_some,
        ← argumentIH]
      rfl
  | case5 start head reached kind name domain body place shape failed domainIH =>
      rw [failed, Option.map_none] at domainIH
      rw [exhaust_from_head reached, shape, exhaust_bind, ← domainIH]
      rfl
  | case6 start head reached kind name domain body place shape first found failed domainIH bodyIH =>
      rw [found, Option.map_some] at domainIH
      rw [failed, Option.map_none] at bodyIH
      rw [exhaust_from_head reached, shape, exhaust_bind, ← domainIH, Option.bind_some, ← bodyIH]
      rfl
  | case7 start head reached kind name domain body place shape first found second foundLast
      domainIH bodyIH =>
      rw [found, Option.map_some] at domainIH
      rw [foundLast, Option.map_some] at bodyIH
      rw [exhaust_from_head reached, shape, exhaust_bind, ← domainIH, Option.bind_some, ← bodyIH]
      rfl
  | case8 start head reached notApp notBind =>
      have stuck : head.1.term.contractLeftmost head.1.supply = none := by
        cases shape : head.1.term with
        | app function argument place => exact (notApp _ _ _ shape).elim
        | bind kind name domain body place => exact (notBind _ _ _ _ _ shape).elim
        | _ => rfl
      rw [exhaust_from_head reached, exhaust_none stuck]
      rfl

/-! A run of a named term is the normal order sequence of its reading, under any
binders, cut off where the budget ends. -/

theorem afterLeftmost_of_exhaust {budget : Nat} {term : Term} {supply : NameSupply} {stage : Stage}
    (reached : exhaust Term.contractLeftmost budget term supply = some stage)
    (binders : List String) :
    ∃ count ≤ budget, (term.namelessUnder binders).afterLeftmost count =
      some (stage.term.namelessUnder binders) := by
  induction budget generalizing term supply with
  | zero =>
      cases step : term.contractLeftmost supply with
      | none =>
          rw [exhaust_none step] at reached
          cases reached
          exact ⟨0, Nat.le_refl 0, rfl⟩
      | some next =>
          rw [exhaust_zero step] at reached
          cases reached
  | succ left ih =>
      cases step : term.contractLeftmost supply with
      | none =>
          rw [exhaust_none step] at reached
          cases reached
          exact ⟨0, Nat.zero_le _, rfl⟩
      | some next =>
          rw [exhaust_succ step] at reached
          obtain ⟨count, within, sequence⟩ := ih reached
          refine ⟨count + 1, Nat.succ_le_succ within, ?_⟩
          rw [Nameless.afterLeftmost, ← Term.namelessUnder_contractLeftmost term supply, step]
          exact sequence

theorem exhaust_of_afterLeftmost {budget count : Nat} {term : Term} {binders : List String}
    {normal : Nameless}
    (sequence : (term.namelessUnder binders).afterLeftmost count = some normal)
    (isNormal : normal.isNormal = true) (within : count ≤ budget) (supply : NameSupply) :
    ∃ stage, exhaust Term.contractLeftmost budget term supply = some stage ∧
      stage.term.namelessUnder binders = normal := by
  induction count generalizing budget term supply with
  | zero =>
      cases sequence
      rw [Term.isNormal_namelessUnder, ← Term.contractLeftmost_eq_none_iff term supply] at isNormal
      exact ⟨_, exhaust_none isNormal budget, rfl⟩
  | succ count ih =>
      obtain ⟨left, rfl⟩ : ∃ left, budget = left + 1 := ⟨budget - 1, by omega⟩
      rw [Nameless.afterLeftmost, ← Term.namelessUnder_contractLeftmost term supply] at sequence
      cases step : term.contractLeftmost supply with
      | none =>
          rw [step] at sequence
          cases sequence
      | some next =>
          rw [step] at sequence
          rw [exhaust_succ step]
          exact ih sequence (Nat.le_of_succ_le_succ within) next.2

end Stage

theorem reduce_eq (context term : Term) (limit : Int) :
    reduce context term limit =
      match Stage.exhaust Term.contractLeftmost limit.toNat term (.ofTerms [term, context]) with
      | some stage => .ok stage.term
      | none => .error (.of (.nonNormalizing term.text limit) term.place) := by
  rw [← Stage.normalize_eq_exhaust ⟨term, limit.toNat, .ofTerms [term, context]⟩, reduce]
  cases Stage.normalize ⟨term, limit.toNat, .ofTerms [term, context]⟩ <;> rfl

theorem reduce_eq_ok_iff {context term result : Term} {limit : Int} :
    reduce context term limit = .ok result ↔ ∃ stage,
      Stage.exhaust Term.contractLeftmost limit.toNat term (.ofTerms [term, context]) =
        some stage ∧ stage.term = result := by
  rw [reduce_eq]
  cases Stage.exhaust Term.contractLeftmost limit.toNat term (.ofTerms [term, context]) <;> simp

theorem reduce_invariant {context term result : Term} {limit : Int}
    (kept : Term → NameSupply → Prop)
    (keeps : ∀ {term supply next after}, kept term supply →
      term.contractLeftmost supply = some (next, after) → kept next after)
    (start : kept term (.ofTerms [term, context]))
    (returned : reduce context term limit = .ok result) : ∃ supply, kept result supply := by
  obtain ⟨stage, run, rfl⟩ := reduce_eq_ok_iff.mp returned
  exact ⟨stage.supply, (Stage.exhaust_invariant kept keeps start run).1⟩

theorem reduce_keeps {context term result : Term} {limit : Int} (kept : Term → Prop)
    (keeps : ∀ {term supply next after}, kept term →
      term.contractLeftmost supply = some (next, after) → kept next)
    (start : kept term) (returned : reduce context term limit = .ok result) :
    kept result ∧ result.isNormal = true := by
  obtain ⟨stage, run, rfl⟩ := reduce_eq_ok_iff.mp returned
  exact ⟨(Stage.exhaust_keeps kept keeps start run).1, Stage.exhaust_contractLeftmost_done run⟩

theorem reduce_of_isNormal {term : Term} (normal : term.isNormal = true) (context : Term)
    (limit : Int) : reduce context term limit = .ok term := by
  rw [reduce_eq, Stage.exhaust_none ((Term.contractLeftmost_eq_none_iff term _).mpr normal)]

/-- What reduction returns, read under any binders: the redex-free end of the
normal order sequence, if the budget reaches it. -/
theorem reduce_ok_iff (context term : Term) (limit : Int) (binders : List String)
    (normal : Nameless) :
    (∃ result, reduce context term limit = .ok result ∧ result.namelessUnder binders = normal) ↔
      ∃ count ≤ limit.toNat, (term.namelessUnder binders).afterLeftmost count = some normal ∧
        normal.isNormal = true := by
  constructor
  · rintro ⟨result, returned, rfl⟩
    obtain ⟨stage, run, rfl⟩ := reduce_eq_ok_iff.mp returned
    obtain ⟨count, within, sequence⟩ := Stage.afterLeftmost_of_exhaust run binders
    refine ⟨count, within, sequence, ?_⟩
    rw [Term.isNormal_namelessUnder, Stage.exhaust_contractLeftmost_done run]
  · rintro ⟨count, within, sequence, isNormal⟩
    obtain ⟨stage, run, same⟩ :=
      Stage.exhaust_of_afterLeftmost sequence isNormal within (.ofTerms [term, context])
    exact ⟨stage.term, reduce_eq_ok_iff.mpr ⟨stage, run, rfl⟩, same⟩

theorem reduce_ok_or_error (context term : Term) (limit : Int) :
    (∃ result, reduce context term limit = .ok result) ∨
      reduce context term limit = .error (.of (.nonNormalizing term.text limit) term.place) := by
  rw [reduce_eq]
  cases Stage.exhaust Term.contractLeftmost limit.toNat term (.ofTerms [term, context]) with
  | none => exact .inr rfl
  | some stage => exact .inl ⟨stage.term, rfl⟩

/-- Two terms that read alike, each under its own binders, reduce alike: to terms
that read alike, or to no term both. -/
theorem reduce_agrees (context other term otherTerm : Term) (limit : Int)
    (binders otherBinders : List String)
    (same : term.namelessUnder binders = otherTerm.namelessUnder otherBinders) (result : Term)
    (returned : reduce context term limit = .ok result) :
    ∃ otherResult, reduce other otherTerm limit = .ok otherResult ∧
      result.namelessUnder binders = otherResult.namelessUnder otherBinders := by
  have sequence := (reduce_ok_iff context term limit binders _).mp ⟨result, returned, rfl⟩
  rw [same] at sequence
  obtain ⟨otherResult, otherReturned, alike⟩ :=
    (reduce_ok_iff other otherTerm limit otherBinders _).mpr sequence
  exact ⟨otherResult, otherReturned, alike.symm⟩

/-- Reduction follows the normal order for at most `limit` contractions, for none
if the limit is negative. If a term without redexes is reached in that many, it is
returned up to bound names; otherwise the diagnosis tells the term, its limit and
its place. The context has a say in nothing but bound names. -/
theorem reduction_is_budgeted_normal_order (context term : Term) (limit : Int) :
    (∀ count normal, term.nameless.afterLeftmost count = some normal → normal.isNormal = true →
      (count : Int) ≤ max limit 0 →
        ∃ result, reduce context term limit = .ok result ∧ result.nameless = normal) ∧
      ((¬∃ count normal, term.nameless.afterLeftmost count = some normal ∧
        normal.isNormal = true ∧ (count : Int) ≤ max limit 0) →
          reduce context term limit =
            .error (.of (.nonNormalizing term.text limit) term.place)) ∧
      ∀ other, (reduce context term limit).map Term.nameless =
        (reduce other term limit).map Term.nameless := by
  refine ⟨fun count normal sequence isNormal within => ?_, fun longer => ?_, fun other => ?_⟩
  · exact (reduce_ok_iff context term limit [] normal).mpr ⟨count, by omega, sequence, isNormal⟩
  · refine (reduce_ok_or_error context term limit).resolve_left ?_
    rintro ⟨result, returned⟩
    obtain ⟨count, within, sequence, isNormal⟩ :=
      (reduce_ok_iff context term limit [] _).mp ⟨result, returned, rfl⟩
    exact longer ⟨count, _, sequence, isNormal, by omega⟩
  · rcases reduce_ok_or_error context term limit with ⟨result, returned⟩ | failed
    · obtain ⟨otherResult, otherReturned, alike⟩ :=
        reduce_agrees context other term term limit [] [] rfl result returned
      rw [returned, otherReturned]
      exact congrArg Except.ok alike
    · rcases reduce_ok_or_error other term limit with ⟨result, returned⟩ | otherFailed
      · obtain ⟨otherResult, otherReturned, _⟩ :=
          reduce_agrees other context term term limit [] [] rfl result returned
        rw [failed] at otherReturned
        cases otherReturned
      · rw [failed, otherFailed]

end TypeInType
