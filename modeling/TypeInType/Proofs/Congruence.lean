import TypeInType.Proofs.Conversion

/-!
Convertibility passes through every construct of the calculus and through
substitution. Two convertible binders are of one kind, and their parts are
convertible: no contraction turns a function type into anything else.
-/

namespace TypeInType

namespace Nameless

def Convertible (left right : Nameless) : Prop :=
  Relation.EqvGen Contracts left right

namespace Convertible

theorem refl (term : Nameless) : Convertible term term :=
  Relation.EqvGen.refl term

theorem symm {left right : Nameless} (convertible : Convertible left right) :
    Convertible right left :=
  Relation.EqvGen.symm left right convertible

theorem trans {left middle right : Nameless} (first : Convertible left middle)
    (second : Convertible middle right) : Convertible left right :=
  Relation.EqvGen.trans left middle right first second

theorem of_contracts {term next : Nameless} (step : Contracts term next) :
    Convertible term next :=
  Relation.EqvGen.rel term next step

theorem of_eq {left right : Nameless} (same : left = right) : Convertible left right := by
  subst same
  exact refl left

/-- What every contraction can be carried through, convertibility can. -/
theorem map {wrap : Nameless → Nameless}
    (carries : ∀ term next, Contracts term next → Convertible (wrap term) (wrap next))
    {left right : Nameless} (convertible : Convertible left right) :
    Convertible (wrap left) (wrap right) := by
  induction convertible with
  | rel term next step => exact carries term next step
  | refl term => exact refl (wrap term)
  | symm _ _ _ ih => exact ih.symm
  | trans _ _ _ _ _ firstIH secondIH => exact firstIH.trans secondIH

theorem app {function function' argument argument' : Nameless}
    (functions : Convertible function function') (arguments : Convertible argument argument') :
    Convertible (.app function argument) (.app function' argument') := by
  have inFunction : Convertible (.app function argument) (.app function' argument) :=
    functions.map fun _ _ step => of_contracts (.function argument step)
  have inArgument : Convertible (.app function' argument) (.app function' argument') :=
    arguments.map fun _ _ step => of_contracts (.argument function' step)
  exact inFunction.trans inArgument

theorem bind (kind : BinderKind) {domain domain' body body' : Nameless}
    (domains : Convertible domain domain') (bodies : Convertible body body') :
    Convertible (.bind kind domain body) (.bind kind domain' body') := by
  have inDomain : Convertible (.bind kind domain body) (.bind kind domain' body) :=
    domains.map fun _ _ step => of_contracts (.domain kind body step)
  have inBody : Convertible (.bind kind domain' body) (.bind kind domain' body') :=
    bodies.map fun _ _ step => of_contracts (.body kind domain' step)
  exact inDomain.trans inBody

theorem instantiate {body body' argument argument' : Nameless}
    (bodies : Convertible body body') (arguments : Convertible argument argument') :
    Convertible (body.instantiate argument) (body'.instantiate argument') := by
  have expanded : ∀ body argument : Nameless,
      Convertible (.app (.bind .lambda .sort body) argument) (body.instantiate argument) :=
    fun body argument => of_contracts (.redex .sort body argument)
  have redexes : Convertible (.app (.bind .lambda .sort body) argument)
      (.app (.bind .lambda .sort body') argument') :=
    (bind .lambda (refl .sort) bodies).app arguments
  exact (expanded body argument).symm.trans (redexes.trans (expanded body' argument'))

end Convertible

theorem Contracts.fill {term next : Nameless} (step : Contracts term next)
    (indices : Nat → Nameless) (names : String → Nameless) :
    Contracts (term.fill indices names) (next.fill indices names) := by
  induction step generalizing indices names with
  | redex domain body argument =>
      rw [fill_instantiate]
      exact .redex _ _ _
  | function argument _ ih => exact .function _ (ih indices names)
  | argument function _ ih => exact .argument _ (ih indices names)
  | domain kind body _ ih => exact .domain kind _ (ih indices names)
  | body kind domain _ ih => exact .body kind _ (ih _ _)

theorem Convertible.fill {left right : Nameless} (convertible : Convertible left right)
    (indices : Nat → Nameless) (names : String → Nameless) :
    Convertible (left.fill indices names) (right.fill indices names) :=
  convertible.map fun _ _ step => .of_contracts (step.fill indices names)

theorem Convertible.relabel {left right : Nameless} (convertible : Convertible left right)
    (label : Nat → Nat) : Convertible (left.relabel label) (right.relabel label) := by
  rw [relabel_eq_fill, relabel_eq_fill]
  exact convertible.fill _ _

theorem Develops.convertible {term next : Nameless} (step : Develops term next) :
    Convertible term next := by
  induction step with
  | sort => exact .refl .sort
  | bound depth => exact .refl (.bound depth)
  | free name => exact .refl (.free name)
  | app _ _ functionIH argumentIH => exact functionIH.app argumentIH
  | bind kind _ _ domainIH bodyIH => exact .bind kind domainIH bodyIH
  | redex domain _ _ bodyIH argumentIH =>
      exact (Convertible.of_contracts (.redex domain _ _)).trans (bodyIH.instantiate argumentIH)

theorem convertible_of_afterLeftmost {count : Nat} {term last : Nameless}
    (reached : term.afterLeftmost count = some last) : Convertible term last := by
  induction count generalizing term with
  | zero => exact .of_eq (Option.some.inj reached)
  | succ count ih =>
      rw [afterLeftmost, Option.bind_eq_some_iff] at reached
      obtain ⟨next, step, rest⟩ := reached
      exact (Convertible.of_contracts (contracts_of_leftmost step)).trans (ih rest)

/-! A binder develops to binders of its own kind only, so it is convertible to no
other binder. -/

theorem developments_of_bind {kind : BinderKind} {domain body last : Nameless}
    (steps : Relation.ReflTransGen Develops (.bind kind domain body) last) :
    ∃ lastDomain lastBody, last = .bind kind lastDomain lastBody ∧
      Convertible domain lastDomain ∧ Convertible body lastBody := by
  induction steps with
  | refl => exact ⟨domain, body, rfl, .refl domain, .refl body⟩
  | tail _ step ih =>
      obtain ⟨_, _, rfl, toDomain, toBody⟩ := ih
      cases step with
      | bind _ inDomain inBody =>
          exact ⟨_, _, rfl, toDomain.trans inDomain.convertible, toBody.trans inBody.convertible⟩

theorem Convertible.bind_injective {kind otherKind : BinderKind}
    {domain body otherDomain otherBody : Nameless}
    (convertible : Convertible (.bind kind domain body) (.bind otherKind otherDomain otherBody)) :
    kind = otherKind ∧ Convertible domain otherDomain ∧ Convertible body otherBody := by
  obtain ⟨common, fromLeft, fromRight⟩ := common_reduct convertible
  obtain ⟨_, _, rfl, leftDomain, leftBody⟩ := developments_of_bind fromLeft
  obtain ⟨_, _, same, rightDomain, rightBody⟩ := developments_of_bind fromRight
  rw [Nameless.bind.injEq] at same
  obtain ⟨rfl, rfl, rfl⟩ := same
  exact ⟨rfl, leftDomain.trans rightDomain.symm, leftBody.trans rightBody.symm⟩

theorem bind_of_convertible_normal {kind : BinderKind} {domain body normal : Nameless}
    (convertible : Convertible (.bind kind domain body) normal)
    (isNormal : normal.isNormal = true) :
    ∃ normalDomain normalBody, normal = .bind kind normalDomain normalBody := by
  obtain ⟨common, fromBinder, fromNormal⟩ := common_reduct convertible
  have unchanged : common = normal := eq_of_developments_normal fromNormal isNormal
  subst unchanged
  obtain ⟨normalDomain, normalBody, shape, _, _⟩ := developments_of_bind fromBinder
  exact ⟨normalDomain, normalBody, shape⟩

end Nameless

/-! The same for terms with names. -/

namespace BetaConvertible

theorem refl (term : Term) : BetaConvertible term term :=
  Relation.EqvGen.refl term

theorem symm {left right : Term} (convertible : BetaConvertible left right) :
    BetaConvertible right left :=
  Relation.EqvGen.symm left right convertible

theorem trans {left middle right : Term} (first : BetaConvertible left middle)
    (second : BetaConvertible middle right) : BetaConvertible left right :=
  Relation.EqvGen.trans left middle right first second

theorem of_nameless_eq {left right : Term} (same : left.nameless = right.nameless) :
    BetaConvertible left right :=
  Relation.EqvGen.rel left right (.inl same)

/-- A construct around a term is carried along if its reading is that of the term
with something filled in or put around it. -/
theorem map {wrap : Term → Term} {around : Nameless → Nameless}
    (reads : ∀ term, (wrap term).nameless = around term.nameless)
    (carries : ∀ term next, Nameless.Contracts term next →
      Nameless.Contracts (around term) (around next))
    {left right : Term} (convertible : BetaConvertible left right) :
    BetaConvertible (wrap left) (wrap right) := by
  induction convertible with
  | rel term next step =>
      apply Relation.EqvGen.rel
      rw [reads, reads]
      rcases step with same | step
      · exact .inl (congrArg around same)
      · exact .inr (carries _ _ step)
  | refl term => exact refl (wrap term)
  | symm _ _ _ ih => exact ih.symm
  | trans _ _ _ _ _ firstIH secondIH => exact firstIH.trans secondIH

end BetaConvertible

theorem not_convertible_of_normal {left right : Term} {count : Nat} {normal : Nameless}
    (leftNormal : left.nameless.isNormal = true)
    (sequence : right.nameless.afterLeftmost count = some normal)
    (isNormal : normal.isNormal = true) (differ : left.nameless ≠ normal) :
    ¬BetaConvertible left right := by
  intro convertible
  have toNormal : Nameless.Convertible left.nameless normal :=
    .trans (convertible_nameless convertible) (Nameless.convertible_of_afterLeftmost sequence)
  exact differ (Nameless.eq_of_convertible_normal toNormal leftNormal isNormal)

end TypeInType
