import TypeInType.Proofs.Conversion

/-!
Normal order finds every normal form. Whatever contractions lead from one term to another,
the way can be put in a standard order: contractions at the head until the outermost
construct of the result is there, and then, in the same manner, what its parts still need.
If the result has no redex, this is the normal order, so a budget that is large enough
lets the reducer reach it, whatever else the term could have been reduced to.
-/

namespace TypeInType

namespace Nameless

inductive HeadContracts : Nameless → Nameless → Prop
  | redex (domain body argument : Nameless) :
      HeadContracts (.app (.bind .lambda domain body) argument) (body.instantiate argument)
  | function {function next : Nameless} (argument : Nameless) :
      HeadContracts function next → HeadContracts (.app function argument) (.app next argument)

abbrev HeadReduces : Nameless → Nameless → Prop :=
  Relation.ReflTransGen HeadContracts

/-- A reduction in standard order. The head is cleared until the outermost construct of the
result is reached, and the parts of that construct follow. -/
inductive Standard : Nameless → Nameless → Prop
  | sort {term : Nameless} : HeadReduces term .sort → Standard term .sort
  | bound {term : Nameless} (depth : Nat) :
      HeadReduces term (.bound depth) → Standard term (.bound depth)
  | free {term : Nameless} (name : String) :
      HeadReduces term (.free name) → Standard term (.free name)
  | app {term function function' argument argument' : Nameless} :
      HeadReduces term (.app function argument) → Standard function function' →
        Standard argument argument' → Standard term (.app function' argument')
  | bind {term domain domain' body body' : Nameless} (kind : BinderKind) :
      HeadReduces term (.bind kind domain body) → Standard domain domain' →
        Standard body body' → Standard term (.bind kind domain' body')

theorem Standard.refl (term : Nameless) : Standard term term := by
  induction term with
  | sort => exact .sort .refl
  | bound depth => exact .bound depth .refl
  | free name => exact .free name .refl
  | app function argument functionIH argumentIH => exact .app .refl functionIH argumentIH
  | bind kind domain body domainIH bodyIH => exact .bind kind .refl domainIH bodyIH

theorem Standard.after {term next last : Nameless} (standard : Standard next last)
    (heads : HeadReduces term next) : Standard term last := by
  cases standard with
  | sort more => exact .sort (heads.trans more)
  | bound depth more => exact .bound depth (heads.trans more)
  | free name more => exact .free name (heads.trans more)
  | app more inFunction inArgument => exact .app (heads.trans more) inFunction inArgument
  | bind kind more inDomain inBody => exact .bind kind (heads.trans more) inDomain inBody

theorem HeadContracts.fill {term next : Nameless} (step : HeadContracts term next)
    (indices : Nat → Nameless) (names : String → Nameless) :
    HeadContracts (term.fill indices names) (next.fill indices names) := by
  induction step with
  | redex domain body argument =>
      rw [fill_instantiate]
      exact .redex _ _ _
  | function argument _ ih => exact .function _ ih

theorem HeadReduces.fill {term next : Nameless} (heads : HeadReduces term next)
    (indices : Nat → Nameless) (names : String → Nameless) :
    HeadReduces (term.fill indices names) (next.fill indices names) := by
  induction heads with
  | refl => exact .refl
  | tail _ step ih => exact ih.tail (step.fill indices names)

theorem HeadReduces.function {function next : Nameless} (heads : HeadReduces function next)
    (argument : Nameless) : HeadReduces (.app function argument) (.app next argument) := by
  induction heads with
  | refl => exact .refl
  | tail _ step ih => exact ih.tail (.function argument step)

theorem Standard.relabel {term next : Nameless} (standard : Standard term next)
    (label : Nat → Nat) : Standard (term.relabel label) (next.relabel label) := by
  have relabelled : ∀ {first second : Nameless}, HeadReduces first second →
      ∀ label, HeadReduces (first.relabel label) (second.relabel label) := by
    intro first second heads label
    rw [relabel_eq_fill, relabel_eq_fill]
    exact heads.fill _ _
  induction standard generalizing label with
  | sort heads => exact .sort (relabelled heads label)
  | bound depth heads => exact .bound (label depth) (relabelled heads label)
  | free name heads => exact .free name (relabelled heads label)
  | app heads _ _ functionIH argumentIH =>
      exact .app (relabelled heads label) (functionIH label) (argumentIH label)
  | bind kind heads _ _ domainIH bodyIH =>
      exact .bind kind (relabelled heads label) (domainIH label) (bodyIH (liftLabel label))

theorem Standard.fill {term next : Nameless} (standard : Standard term next)
    {indices indices' : Nat → Nameless} {names names' : String → Nameless}
    (atIndices : ∀ depth, Standard (indices depth) (indices' depth))
    (atNames : ∀ name, Standard (names name) (names' name)) :
    Standard (term.fill indices names) (next.fill indices' names') := by
  induction standard generalizing indices indices' names names' with
  | sort heads => exact .sort (heads.fill indices names)
  -- What is filled in goes on from where the head has led.
  | bound depth heads => exact (atIndices depth).after (heads.fill indices names)
  | free name heads => exact (atNames name).after (heads.fill indices names)
  | app heads _ _ functionIH argumentIH =>
      exact .app (heads.fill indices names) (functionIH atIndices atNames)
        (argumentIH atIndices atNames)
  | bind kind heads _ _ domainIH bodyIH =>
      refine .bind kind (heads.fill indices names) (domainIH atIndices atNames) (bodyIH ?_ ?_)
      · intro depth
        cases depth with
        | zero => exact .refl (.bound 0)
        | succ depth => exact (atIndices depth).relabel Nat.succ
      · exact fun name => (atNames name).relabel Nat.succ

theorem Standard.instantiate {body body' argument argument' : Nameless}
    (inBody : Standard body body') (inArgument : Standard argument argument') :
    Standard (body.instantiate argument) (body'.instantiate argument') := by
  apply inBody.fill
  · intro depth
    cases depth with
    | zero => exact inArgument
    | succ depth => exact .refl (.bound depth)
  · exact fun name => .refl (.free name)

/-- One more contraction anywhere: the reduction can be put in standard order again. -/
theorem Standard.contract {term next last : Nameless} (standard : Standard term next)
    (step : Contracts next last) : Standard term last := by
  induction step generalizing term with
  | redex domain body argument =>
      cases standard with
      | app heads inFunction inArgument =>
          cases inFunction with
          | bind _ toLambda _ inBody =>
              -- The redex can be contracted as soon as its lambda has come up to the head.
              refine (inBody.instantiate inArgument).after (heads.trans ?_)
              exact (toLambda.function _).tail (.redex _ _ _)
  | function argument _ ih =>
      cases standard with
      | app heads inFunction inArgument => exact .app heads (ih inFunction) inArgument
  | argument function _ ih =>
      cases standard with
      | app heads inFunction inArgument => exact .app heads inFunction (ih inArgument)
  | domain kind body _ ih =>
      cases standard with
      | bind _ heads inDomain inBody => exact .bind kind heads (ih inDomain) inBody
  | body kind domain _ ih =>
      cases standard with
      | bind _ heads inDomain inBody => exact .bind kind heads inDomain (ih inBody)

theorem standard_of_contractions {term last : Nameless}
    (steps : Relation.ReflTransGen Contracts term last) : Standard term last := by
  induction steps with
  | refl => exact .refl term
  | tail _ step ih => exact ih.contract step

/-! Normal order, in the same manner. -/

abbrev LeftmostReduces : Nameless → Nameless → Prop :=
  Relation.ReflTransGen fun term next => term.leftmost = some next

theorem HeadContracts.leftmost {term next : Nameless} (step : HeadContracts term next) :
    term.leftmost = some next := by
  induction step with
  | redex domain body argument => rfl
  | @function function next argument step ih =>
      have notLambda : function.isLambda = false := by cases step <;> rfl
      rw [leftmost_app argument notLambda, ih]

theorem leftmostReduces_of_head {term next : Nameless} (heads : HeadReduces term next) :
    LeftmostReduces term next := by
  induction heads with
  | refl => exact .refl
  | tail _ step ih => exact ih.tail step.leftmost

theorem notLambda_of_leftmost {term next : Nameless} (step : term.leftmost = some next)
    (notLambda : next.isLambda = false) : term.isLambda = false := by
  obtain ⟨domain, body, rfl⟩ | before := term.lambda_or_not
  · rw [Nameless.leftmost] at step
    cases inner : domain.leftmost with
    | some first =>
        rw [inner] at step
        cases step
        cases notLambda
    | none =>
        rw [inner, Option.map_eq_some_iff] at step
        obtain ⟨second, _, rfl⟩ := step
        cases notLambda
  · exact before

theorem LeftmostReduces.function {function last : Nameless}
    (steps : LeftmostReduces function last) (notLambda : last.isLambda = false)
    (argument : Nameless) : LeftmostReduces (.app function argument) (.app last argument) := by
  induction steps with
  | refl => exact .refl
  | tail _ step ih =>
      have before := notLambda_of_leftmost step notLambda
      exact (ih before).tail (by rw [leftmost_app argument before, step])

theorem LeftmostReduces.argument {function argument last : Nameless}
    (steps : LeftmostReduces argument last) (notLambda : function.isLambda = false)
    (normal : function.isNormal = true) :
    LeftmostReduces (.app function argument) (.app function last) := by
  have passed := (leftmost_eq_none_iff function).mpr normal
  induction steps with
  | refl => exact .refl
  | tail _ step ih => exact ih.tail (by rw [leftmost_app _ notLambda, passed, step]; rfl)

theorem LeftmostReduces.domain {domain last : Nameless} (steps : LeftmostReduces domain last)
    (kind : BinderKind) (body : Nameless) :
    LeftmostReduces (.bind kind domain body) (.bind kind last body) := by
  induction steps with
  | refl => exact .refl
  | tail _ step ih => exact ih.tail (by rw [Nameless.leftmost, step])

theorem LeftmostReduces.body {domain body last : Nameless} (steps : LeftmostReduces body last)
    (kind : BinderKind) (normal : domain.isNormal = true) :
    LeftmostReduces (.bind kind domain body) (.bind kind domain last) := by
  have passed := (leftmost_eq_none_iff domain).mpr normal
  induction steps with
  | refl => exact .refl
  | tail _ step ih => exact ih.tail (by rw [Nameless.leftmost, passed, step]; rfl)

theorem Standard.leftmostReduces {term last : Nameless} (standard : Standard term last)
    (normal : last.isNormal = true) : LeftmostReduces term last := by
  induction standard with
  | sort heads => exact leftmostReduces_of_head heads
  | bound depth heads => exact leftmostReduces_of_head heads
  | free name heads => exact leftmostReduces_of_head heads
  | @app term function function' argument argument' heads _ _ functionIH argumentIH =>
      obtain ⟨domain, body, rfl⟩ | notLambda := function'.lambda_or_not
      · simp [isNormal] at normal
      · rw [isNormal_app argument' notLambda, Bool.and_eq_true] at normal
        calc LeftmostReduces term (.app function argument) := leftmostReduces_of_head heads
          LeftmostReduces _ (.app function' argument) :=
            (functionIH normal.1).function notLambda argument
          LeftmostReduces _ (.app function' argument') :=
            (argumentIH normal.2).argument notLambda normal.1
  | @bind term domain domain' body body' kind heads _ _ domainIH bodyIH =>
      rw [isNormal, Bool.and_eq_true] at normal
      calc LeftmostReduces term (.bind kind domain body) := leftmostReduces_of_head heads
        LeftmostReduces _ (.bind kind domain' body) := (domainIH normal.1).domain kind body
        LeftmostReduces _ (.bind kind domain' body') := (bodyIH normal.2).body kind normal.1

theorem exists_afterLeftmost {term last : Nameless} (steps : LeftmostReduces term last) :
    ∃ count, term.afterLeftmost count = some last := by
  induction steps using Relation.ReflTransGen.head_induction_on with
  | refl => exact ⟨0, rfl⟩
  | head step _ ih =>
      obtain ⟨count, reached⟩ := ih
      exact ⟨count + 1, by rw [afterLeftmost, step, Option.bind_some, reached]⟩

end Nameless

def BetaReduces : Term → Term → Prop :=
  Relation.ReflTransGen fun term next =>
    term.nameless = next.nameless ∨ term.nameless.Contracts next.nameless

theorem contractions_of_betaReduces {term last : Term} (reduces : BetaReduces term last) :
    Relation.ReflTransGen Nameless.Contracts term.nameless last.nameless := by
  induction reduces with
  | refl => exact .refl
  | tail _ step ih =>
      rcases step with same | step
      · exact same ▸ ih
      · exact ih.tail step

/-- If any contractions lead from a term to one without redexes, so does the normal order:
under every context, all limits from some bound on let the reducer return that term, up to
bound names. -/
theorem normal_order_finds_normal_form {term normal : Term} (reduces : BetaReduces term normal)
    (isNormal : normal.isNormal = true) :
    ∃ bound : Int, ∀ limit ≥ bound, ∀ context, ∃ result,
      reduce context term limit = .ok result ∧ result.alphaEquivalent [] normal = true := by
  have endsNormal : normal.nameless.isNormal = true := by
    rw [Term.nameless, Term.isNormal_namelessUnder, isNormal]
  have standard := Nameless.standard_of_contractions (contractions_of_betaReduces reduces)
  obtain ⟨count, reached⟩ := Nameless.exists_afterLeftmost (standard.leftmostReduces endsNormal)
  refine ⟨count, fun limit enough context => ?_⟩
  obtain ⟨result, returned, reads⟩ := (reduce_ok_iff context term limit [] normal.nameless).mpr
    ⟨count, by omega, reached, endsNormal⟩
  exact ⟨result, returned, by rw [Term.alphaEquivalent_nil_iff]; exact reads⟩

/-- In the annotation a redex throws away an argument that contracts to itself for ever. -/
theorem normal_form_beside_loop :
    let double : Term := .lam "x" (.sort none) (.app (.var "x" none) (.var "x" none) none) none
    let loop : Term := .app double double none
    let domain : Term := .app (.lam "y" (.sort none) (.var "A" none) none) loop none
    let term : Term := .lam "z" domain (.var "z" none) none
    let normal : Term := .lam "w" (.var "A" none) (.var "w" none) none
    term.nameless.Contracts term.nameless ∧ BetaReduces term normal ∧ normal.isNormal = true ∧
      ∃ bound : Int, ∀ limit ≥ bound, ∀ context, ∃ result,
        reduce context term limit = .ok result ∧ result.alphaEquivalent [] normal = true := by
  intro double loop domain term normal
  have loops : term.nameless.Contracts term.nameless :=
    .domain .lambda _ (.argument _ (.redex _ _ _))
  have reduces : BetaReduces term normal :=
    .single (.inr (.domain .lambda _ (.redex _ _ _)))
  exact ⟨loops, reduces, rfl, normal_order_finds_normal_form reduces rfl⟩

end TypeInType
