import Mathlib
import TypeInType.Program.Elaborate
import TypeInType.Proofs.Typing

/-!
What stands in for a theorem afterwards. The checker looks at the proof as it was
written, but its normal form is what later steps get to see. The normal form still
proves the statement if the checker gives it a type at all.
-/

namespace TypeInType

variable {settings : Settings}

theorem typeOf_ok_iff {expression type : Term} :
    (typeOf settings expression).outcome = .ok type ↔
      (normalType settings (.sort none) expression).outcome = .ok type := by
  cases shaped : expression.isTelescope with
  | false => rw [typeOf_other settings shaped]
  | true =>
      rw [typeOf_telescope settings shaped]
      -- Both judgements answer `Type`, which is reduced only by one of them.
      have sortNormal : ∀ place, settings.reduce (.sort none) (.sort place) = .ok (.sort place) :=
        fun place => reduce_of_isNormal rfl _ _
      cases expression with
      | sort place =>
          rw [checkContext_sort, normalType_outcome, synthesize_sort]
          show Except.ok (Term.sort place) = .ok type ↔ settings.reduce _ _ = .ok type
          rw [sortNormal]
      | bind kind name domain body place =>
          cases kind with
          | lambda => cases shaped
          | pi =>
              rw [checkContext_moves settings (.inr rfl), normalType_outcome, synthesize_pi,
                bind_assoc, bind_eq_ok_iff, bind_eq_ok_iff]
              apply exists_congr
              intro valid
              apply and_congr_right
              intro _
              cases valid with
              | false => exact ⟨nofun, nofun⟩
              | true =>
                  show Except.ok (Term.sort place) = .ok type ↔ settings.reduce _ _ = .ok type
                  rw [sortNormal]
      | var => cases shaped
      | app => cases shaped

theorem elaborateTheorem_outcome (claim : Theorem) (rest : Program) :
    (elaborateTheorem settings claim rest).outcome = (do
      let _ ← (checkStatement settings claim).outcome
      let proof ← (checkProof settings claim).outcome
      .ok (rest.inline settings claim.name proof)) := by
  rw [elaborateTheorem]
  cases (checkStatement settings claim).outcome with
  | error diagnosis => rfl
  | ok warnings =>
      cases proved : (checkProof settings claim).outcome with
      | error diagnosis => simp only [proved]; rfl
      | ok proof => simp only [proved]; rfl

theorem checkProof_ok_iff {claim : Theorem} {proof : Term} :
    (checkProof settings claim).outcome = .ok proof ↔
      ∃ statement type, settings.reduce (.sort none) claim.statement = .ok statement ∧
        settings.reduce (.sort none) claim.proof = .ok proof ∧
          (typeOf settings claim.proof).outcome = .ok type ∧
            Term.alphaEquivalent [] statement type = true := by
  simp only [checkProof, Checked.outcome_bind, Checked.outcome_silent, bind_eq_ok_iff]
  constructor
  · rintro ⟨statement, stated, normal, reduced, type, typed, compared⟩
    split at compared
    · rename_i same
      obtain rfl := Except.ok.inj compared
      exact ⟨statement, type, stated, reduced, typed, same⟩
    · cases compared
  · rintro ⟨statement, type, stated, reduced, typed, same⟩
    refine ⟨statement, stated, proof, reduced, type, typed, ?_⟩
    rw [if_pos same]
    rfl

/-- A theorem is elaborated when its statement is found no worse than undecided, both
of its terms have normal forms, and the type of the proof is the statement. -/
theorem elaborateTheorem_ok_iff {claim : Theorem} {rest next : Program} :
    (elaborateTheorem settings claim rest).outcome = .ok next ↔
      (∃ warnings, (checkStatement settings claim).outcome = .ok warnings) ∧
        ∃ proof, (checkProof settings claim).outcome = .ok proof ∧
          next = rest.inline settings claim.name proof := by
  rw [elaborateTheorem_outcome, bind_eq_ok_iff]
  constructor
  · rintro ⟨warnings, stated, elaborated⟩
    obtain ⟨proof, proved, inlined⟩ := bind_eq_ok_iff.mp elaborated
    exact ⟨⟨warnings, stated⟩, proof, proved, (Except.ok.inj inlined).symm⟩
  · rintro ⟨⟨warnings, stated⟩, proof, proved, rfl⟩
    exact ⟨warnings, stated, bind_eq_ok_iff.mpr ⟨proof, proved, rfl⟩⟩

/-- The checker gives the proof the statement as its type, up to bound names. -/
def Proves (settings : Settings) (proof statement : Term) : Prop :=
  ∃ type, (typeOf settings proof).outcome = .ok type ∧ type.alphaEquivalent [] statement = true

theorem typeOf_answered {expression : Term}
    (answered : AnsweredOrSpent (synthesize settings (.sort none) expression).outcome)
    (accepted : (Question.typing (.sort none) expression).FunctionTypesAccepted settings) :
    AnsweredOrSpent (typeOf settings expression).outcome := by
  cases shaped : expression.isTelescope with
  | false =>
      rw [typeOf_other settings shaped]
      exact normalType_answered answered
  | true =>
      -- A telescope is a function type itself, or `Type`.
      have found : ∃ place, (synthesize settings (.sort none) expression).outcome =
          .ok (.sort place) := by
        cases expression with
        | sort place => exact ⟨place, synthesize_sort settings _ place⟩
        | bind kind name domain body place =>
            cases kind with
            | lambda => cases shaped
            | pi =>
                obtain ⟨type, typed⟩ := accepted _ _ _ _ _ .refl
                rw [synthesize_pi, bind_eq_ok_iff] at typed
                obtain ⟨valid, accepts, made⟩ := typed
                cases valid with
                | false => cases made
                | true =>
                    refine ⟨place, ?_⟩
                    rw [synthesize_pi, accepts]
                    rfl
        | var => cases shaped
        | app => cases shaped
      obtain ⟨place, typed⟩ := found
      refine .inl ⟨.sort place, typeOf_ok_iff.mpr ?_⟩
      exact normalType_of_normal typed rfl

/-- Of an elaborated theorem the normal form of the proof is passed on. Where nothing
is captured while either is typed, the checker can give that normal form no type
but the statement, and it gives one, unless the context rules refuse a function
type that stands in it or the budget is spent. -/
theorem inlined_proof_proves_statement (settings : Settings) (claim : Theorem)
    (rest next : Program) (elaborated : (elaborateTheorem settings claim rest).outcome = .ok next) :
    ∃ statement proof, settings.reduce (.sort none) claim.statement = .ok statement ∧
      settings.reduce (.sort none) claim.proof = .ok proof ∧
      next = rest.inline settings claim.name proof ∧
      ((Question.typing (.sort none) claim.proof).NothingCaptured settings →
        (Question.typing (.sort none) proof).NothingCaptured settings →
          (∀ type, (typeOf settings proof).outcome = .ok type →
            type.alphaEquivalent [] statement = true) ∧
          ((Question.typing (.sort none) proof).FunctionTypesAccepted settings →
            Proves settings proof statement ∨ ∃ diagnosis,
              (typeOf settings proof).outcome = .error diagnosis ∧
                diagnosis.cause.kind = "non_normalizing")) := by
  obtain ⟨_, proof, proved, inlined⟩ := elaborateTheorem_ok_iff.mp elaborated
  obtain ⟨statement, type, stated, reduced, typed, same⟩ := checkProof_ok_iff.mp proved
  refine ⟨statement, proof, stated, reduced, inlined, ?_⟩
  intro clear proofClear
  obtain ⟨convertible, proofNormal⟩ := convertible_of_reduce reduced []
  obtain ⟨⟨written, hasWritten, likeType⟩, typeNormal⟩ :=
    hasType_of_normalType (fun _ => hasType_of_synthesize clear) (typeOf_ok_iff.mp typed)
  have keeps : ∀ other, (typeOf settings proof).outcome = .ok other →
      other.alphaEquivalent [] statement = true := by
    intro other otherTyped
    obtain ⟨⟨reducedType, hasReduced, likeOther⟩, otherNormal⟩ :=
      hasType_of_normalType (fun _ => hasType_of_synthesize proofClear)
        (typeOf_ok_iff.mp otherTyped)
    -- Subject reduction, then two normal forms that are convertible.
    have types := Nameless.types_of_convertible convertible hasWritten hasReduced
    have equal := Nameless.eq_of_convertible_normal
      (likeOther.symm.trans (types.symm.trans likeType)) otherNormal typeNormal
    rw [Term.alphaEquivalent_nil_iff] at same ⊢
    exact equal.trans same.symm
  refine ⟨keeps, fun accepted => ?_⟩
  obtain ⟨common, fromWritten, fromReduced⟩ := Nameless.common_reduct convertible
  have reached := Nameless.eq_of_developments_normal fromReduced proofNormal
  subst reached
  obtain ⟨_, hasType, _⟩ := Nameless.developments_keep_type fromWritten hasWritten
  rcases typeOf_answered (synthesize_answered proofClear accepted hasType) accepted with
    ⟨type, typed⟩ | spent
  · exact .inl ⟨type, typed, keeps type typed⟩
  · exact .inr spent

/-- A proof with a redex under its binders, and what stands in for it. -/
theorem inlined_application_proves_statement :
    let settings : Settings := { captureAvoiding := true }
    let claim : Theorem := {
      name := "t"
      statement := .pi "A" (.sort none) (.pi "a" (.var "A" none) (.var "A" none) none) none
      proof := .lam "A" (.sort none) (.lam "a" (.var "A" none)
        (.app (.lam "b" (.var "A" none) (.var "b" none) none) (.var "a" none) none) none) none }
    ∃ statement proof,
      (elaborateTheorem settings claim []).outcome = .ok (Program.inline settings [] "t" proof) ∧
        Proves settings proof statement := by
  intro settings claim
  let normal : Term :=
    .lam "A" (.sort none) (.lam "a" (.var "A" none) (.var "a" none) none) none
  have reduced : settings.reduce (.sort none) claim.proof = .ok normal := by
    rw [Settings.reduce, reduce_eq]
    cbv
  have stays : settings.reduce (.sort none) claim.statement = .ok claim.statement :=
    reduce_of_isNormal rfl _ _
  have elaborated : (elaborateTheorem settings claim []).outcome =
      .ok (Program.inline settings [] "t" normal) := by
    rw [elaborateTheorem_ok_iff]
    refine ⟨⟨[.of (.ambiguous (Term.pi "A" (.sort none) (.sort none) none).text
      (Term.pi "a" (.var "A" none) (.var "A" none) none).text) none], by cbv⟩, normal, ?_, rfl⟩
    exact checkProof_ok_iff.mpr
      ⟨claim.statement, claim.statement, stays, reduced, by cbv, by decide⟩
  obtain ⟨statement, proof, stated, found, _, proves⟩ :=
    inlined_proof_proves_statement settings claim [] _ elaborated
  rw [reduced] at found
  obtain rfl := Except.ok.inj found
  have clear : ∀ {expression : Term}, expression.Distinct [] →
      (Question.typing (.sort none) expression).NothingCaptured settings :=
    fun distinct => .of_avoiding rfl (.of_distinct ⟨.empty none, distinct⟩)
  have accepted : (Question.typing (.sort none) normal).FunctionTypesAccepted settings := by
    intro context name domain body place reaches
    -- Two binders and a variable: no function type is ever asked about.
    dsimp only [normal] at reaches
    rcases reaches.cases_head with same | ⟨_, step, reaches⟩
    · cases same
    cases step
    rcases reaches.cases_head with same | ⟨_, step, reaches⟩
    · cases same
    cases step
    rcases reaches.cases_head with same | ⟨_, step, _⟩
    · cases same
    cases step
  have answers := (proves (clear ⟨by decide, by decide, by decide⟩)
    (clear ⟨by decide, by decide, by decide⟩)).2 accepted
  refine ⟨statement, normal, elaborated, answers.resolve_right ?_⟩
  rintro ⟨diagnosis, refused, _⟩
  have typed : (typeOf settings normal).outcome = .ok claim.statement := by
    cbv
  rw [typed] at refused
  cases refused

def LosesProof (settings : Settings) (claim : Theorem) : Prop :=
  ∃ statement proof, settings.reduce (.sort none) claim.statement = .ok statement ∧
    settings.reduce (.sort none) claim.proof = .ok proof ∧
      (∀ rest, (elaborateTheorem settings claim rest).outcome =
        .ok (rest.inline settings claim.name proof)) ∧
        ¬Proves settings proof statement

theorem losesProof_of_type {claim : Theorem} {proof : Term}
    (stated : ∃ warnings, (checkStatement settings claim).outcome = .ok warnings)
    (statementNormal : claim.statement.isNormal = true)
    (reduced : settings.reduce (.sort none) claim.proof = .ok proof)
    (typed : (typeOf settings claim.proof).outcome = .ok claim.statement)
    (lost : ¬Proves settings proof claim.statement) : LosesProof settings claim := by
  have stays := reduce_of_isNormal statementNormal (.sort none) settings.maxReductionSteps
  have same : Term.alphaEquivalent [] claim.statement claim.statement = true :=
    (Term.alphaEquivalent_nil_iff _ _).mpr rfl
  have proved := checkProof_ok_iff.mpr
    ⟨claim.statement, claim.statement, stays, reduced, typed, same⟩
  refine ⟨claim.statement, proof, stays, reduced, ?_, lost⟩
  intro rest
  rw [elaborateTheorem_ok_iff]
  exact ⟨stated, proof, proved, rfl⟩

theorem normalType_lam_ok {context domain body type : Term} {name : String}
    {place : Option Location}
    (typed : (normalType settings context (.lam name domain body place)).outcome = .ok type) :
    ∃ bodyType, (normalType settings (context.withBinding name domain) body).outcome =
      .ok bodyType := by
  rw [normalType_outcome, synthesize_lam, bind_eq_ok_iff] at typed
  obtain ⟨_, synthesized, _⟩ := typed
  obtain ⟨bodyType, bodyTyped, _⟩ := bind_eq_ok_iff.mp synthesized
  exact ⟨bodyType, bodyTyped⟩

theorem normalType_app_ok {context function argument type : Term} {place : Option Location}
    (typed : (normalType settings context (.app function argument place)).outcome = .ok type) :
    ∃ functionType, (normalType settings context function).outcome = .ok functionType := by
  rw [normalType_outcome, synthesize_app, bind_eq_ok_iff] at typed
  obtain ⟨_, synthesized, _⟩ := typed
  obtain ⟨functionType, functionTyped, _⟩ := bind_eq_ok_iff.mp synthesized
  exact ⟨functionType, functionTyped⟩

/-! Accepted proofs whose normal forms are not. -/

namespace LostProof

/-- The proof `fun (z : Type) => (fun (A : Type) => forall (x : A), Type) (Type -> Type)`.
Its normal form asks whether `Type -> Type` is a context under `z : Type`. -/
def unruled : Theorem where
  name := "t"
  statement := .pi "z" (.sort none) (.sort none) none
  proof := .lam "z" (.sort none) (.app
    (.lam "A" (.sort none) (.pi "x" (.var "A" none) (.sort none) none) none)
    (.arrow (.sort none) (.sort none) none) none) none

theorem unruled_loses_proof : LosesProof { captureAvoiding := true } unruled := by
  let arrow : Term := .arrow (.sort none) (.sort none) none
  have reduced : Settings.reduce { captureAvoiding := true } (.sort none) unruled.proof =
      .ok (.lam "z" (.sort none) (.pi "x" arrow (.sort none) none) none) := by
    rw [Settings.reduce, reduce_eq]
    cbv
  apply losesProof_of_type ⟨[], by cbv⟩ rfl reduced
  · cbv
  · rintro ⟨type, typed, _⟩
    have refused : (typeOf { captureAvoiding := true }
        (.lam "z" (.sort none) (.pi "x" arrow (.sort none) none) none)).outcome =
          .error (.of (.ambiguous unruled.statement.text arrow.text) none) := by
      cbv
    rw [refused] at typed
    cases typed

/-- The proof `fun (y : Type) => (fun (A : Type) (y : A) (z : A) => z) y`. The
checker's substitution captures `y`, and so does the type that is stated. -/
def captured : Theorem where
  name := "t"
  statement := .pi "y" (.sort none) (.pi "y" (.var "y" none)
    (.pi "z" (.var "y" none) (.var "y" none) none) none) none
  proof := .lam "y" (.sort none) (.app
    (.lam "A" (.sort none) (.lam "y" (.var "A" none)
      (.lam "z" (.var "A" none) (.var "z" none) none) none) none)
    (.var "y" none) none) none

theorem captured_loses_proof : LosesProof {} captured := by
  have reduced : Settings.reduce {} (.sort none) captured.proof =
      .ok (.lam "y" (.sort none) (.lam "y'" (.var "y" none)
        (.lam "z" (.var "y" none) (.var "z" none) none) none) none) := by
    rw [Settings.reduce, reduce_eq]
    cbv
  have stated : (checkStatement {} captured).outcome = .ok [.of (.ambiguous
      (Term.pi "y" (.sort none) (.sort none) none).text
      (Term.pi "y" (.var "y" none) (.pi "z" (.var "y" none) (.var "y" none) none) none).text)
        none] := by
    cbv
  apply losesProof_of_type ⟨_, stated⟩ rfl reduced
  · cbv
  · rintro ⟨type, typed, same⟩
    have retyped : (typeOf {} (.lam "y" (.sort none) (.lam "y'" (.var "y" none)
        (.lam "z" (.var "y" none) (.var "z" none) none) none) none)).outcome =
          .ok (.pi "y" (.sort none) (.pi "y'" (.var "y" none)
            (.pi "z" (.var "y" none) (.var "y" none) none) none) none) := by
      cbv
    rw [retyped] at typed
    obtain rfl := Except.ok.inj typed
    revert same
    decide

def endomap : Term :=
  .arrow (.sort none) (.sort none) none

def twice (function : Term) : Term :=
  .app function (.app function (.sort none) none) none

def member : Term :=
  .pi "g" endomap (twice (.var "g" none)) none

def family : Term :=
  .pi "g" endomap (.arrow (twice (.var "g" none)) (.sort none) none) none

def paired (argument : Term) : Term :=
  .app (.app (.var "y" none) argument none) (.app (.var "x" none) argument none) none

def identity : Term :=
  .lam "h" (.sort none) (.var "h" none) none

/-- The proof `fun (x : member) (y : family) => (fun (k : Type -> Type) => y k (x k)) identity`.
One contraction gives the normal form, in which the type of `y identity` has two to make. -/
def costly : Theorem where
  name := "t"
  statement := .pi "x" member (.pi "y" family (.sort none) none) none
  proof := .lam "x" member (.lam "y" family
    (.app (.lam "k" endomap (paired (.var "k" none)) none) identity none) none) none

theorem costly_loses_proof : LosesProof { maxReductionSteps := 1 } costly := by
  let settings : Settings := { maxReductionSteps := 1 }
  let context := ((Term.sort none).withBinding "x" member).withBinding "y" family
  let instance' := Term.arrow (twice identity) (.sort none) none
  have reduced : settings.reduce (.sort none) costly.proof =
      .ok (.lam "x" member (.lam "y" family (paired identity) none) none) := by
    rw [Settings.reduce, reduce_eq]
    cbv
  have stated : (checkStatement settings costly).outcome = .ok [.of (.ambiguous
      (Term.pi "x" member (.sort none) none).text
      (Term.pi "y" family (.sort none) none).text) none] := by
    cbv
  apply losesProof_of_type ⟨_, stated⟩ rfl reduced
  · cbv
  · rintro ⟨type, typed, _⟩
    obtain ⟨_, typed⟩ := normalType_lam_ok (typeOf_ok_iff.mp typed)
    obtain ⟨_, typed⟩ := normalType_lam_ok typed
    obtain ⟨functionType, typed⟩ := normalType_app_ok typed
    have synthesized : (synthesize settings context
        (.app (.var "y" none) identity none)).outcome = .ok instance' := by
      cbv
    rw [normalType_outcome, bind_eq_ok_iff] at typed
    obtain ⟨other, found, returned⟩ := typed
    rw [synthesized] at found
    obtain rfl := Except.ok.inj found
    obtain ⟨count, within, sequence, isNormal⟩ :=
      (reduce_ok_iff context instance' 1 [] _).mp ⟨functionType, returned, rfl⟩
    have few : count = 0 ∨ count = 1 := by
      have : count ≤ 1 := within
      omega
    rcases few with rfl | rfl <;>
    · rw [← Option.some.inj sequence] at isNormal
      cases isNormal

end LostProof

/-- Three ways in which the normal form of an accepted proof fails to prove the
statement: it holds a function type that no context rule decides, the checker's own
substitution captured a name in the type of the proof, or the types of the normal
form take more contractions than those of the proof. -/
theorem normal_form_loses_proof :
    LosesProof { captureAvoiding := true } LostProof.unruled ∧ LosesProof {} LostProof.captured ∧
      LosesProof { maxReductionSteps := 1 } LostProof.costly :=
  ⟨LostProof.unruled_loses_proof, LostProof.captured_loses_proof, LostProof.costly_loses_proof⟩

end TypeInType
