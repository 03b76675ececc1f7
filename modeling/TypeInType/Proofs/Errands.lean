import TypeInType.Proofs.Plugging
import TypeInType.Proofs.SupplyRecord

/-!
A substitution call by call. The substitution and its walk along a term are written once more as
errands, each of which says what one call does by itself: it reserves names, draws one, or sends
another errand and goes on with the answer. The renaming of a body is an errand like any other.
Errands come to an end with the term and the record of the substitution, and with no others.
-/

namespace TypeInType

open NameSupply

theorem Term.rename_eq_plug (term : Term) (old new : String) :
    term.rename old new = term.plug false old (.var new none) := by
  induction term with
  | sort place => rfl
  | var name place => rfl
  | app function argument place functionIH argumentIH =>
      rw [rename, plug, functionIH, argumentIH]
  | bind kind bound domain body place domainIH bodyIH =>
      rw [rename, plug, domainIH, bodyIH]
      split <;> rfl

/-- A call of the substitution, which puts all names in use, or of its walk along a term. -/
inductive Errand where
  | substitute (term : Term) (name : String) (replacement : Term)
  | walk (term : Term) (name : String) (replacement : Term)

inductive Errand.Plan where
  | give (result : Term)
  | enter (entry : Entry) (next : Plan)
  | draw (like : String) (next : String → Plan)
  | send (errand : Errand) (next : Term → Plan)

namespace Errand

def bodyPlan (kind : BinderKind) (bound : String) (domain body : Term) (place : Option Location)
    (name : String) (replacement : Term) : Plan :=
  if bound = name ∨ ¬body.hasFree name then .give (.bind kind bound domain body place)
  else if replacement.hasFree bound then
    .draw bound fun renamed =>
    .send (.substitute body bound (.var renamed none)) fun body =>
    .send (.walk body name replacement) fun body =>
    .give (.bind kind renamed domain body place)
  else
    .send (.walk body name replacement) fun body =>
    .give (.bind kind bound domain body place)

def plan : Errand → Plan
  | .substitute term name replacement =>
      .enter (.reserved (name :: (term.allNames ++ replacement.allNames))) <|
      .send (.walk term name replacement) fun result =>
      .enter (.substituted term name replacement result) <|
      .give result
  | .walk (.sort place) _ _ => .give (.sort place)
  | .walk (.var other place) name replacement =>
      .give (if other = name then replacement else .var other place)
  | .walk (.app function argument place) name replacement =>
      .send (.walk function name replacement) fun function =>
      .send (.walk argument name replacement) fun argument =>
      .give (.app function argument place)
  | .walk (.bind kind bound domain body place) name replacement =>
      .send (.walk domain name replacement) fun domain =>
      bodyPlan kind bound domain body place name replacement

namespace Plan

/-- With this supply the plan comes to an end, with this result, and leaves this record. -/
inductive Runs : NameSupply → Plan → Term → List Entry → Prop where
  | give {supply : NameSupply} (result : Term) : Runs supply (.give result) result []
  | enter {supply : NameSupply} {entry : Entry} {next : Plan} {result : Term}
      {record : List Entry} (rest : Runs (supply.enter entry) next result record) :
      Runs supply (.enter entry next) result (entry :: record)
  | draw {supply : NameSupply} {like : String} {next : String → Plan} {result : Term}
      {record : List Entry}
      (rest : Runs (supply.enter (.drawn like)) (next (supply.fresh like).1) result record) :
      Runs supply (.draw like next) result (.drawn like :: record)
  | send {supply : NameSupply} {errand : Errand} {next : Term → Plan} {answer result : Term}
      {first second : List Entry} (errandRuns : Runs supply errand.plan answer first)
      (rest : Runs (supply.replay first) (next answer) result second) :
      Runs supply (.send errand next) result (first ++ second)

def Sends : Plan → NameSupply → NameSupply × Errand → Prop
  | .give _, _, _ => False
  | .enter entry next, supply, sent => next.Sends (supply.enter entry) sent
  | .draw like next, supply, sent =>
      (next (supply.fresh like).1).Sends (supply.enter (.drawn like)) sent
  | .send errand next, supply, sent =>
      sent = (supply, errand) ∨
        ∃ answer record, errand.plan.Runs supply answer record ∧
          (next answer).Sends (supply.replay record) sent

theorem Runs.unique {supply : NameSupply} {plan : Plan} {result other : Term}
    {record more : List Entry} (runs : plan.Runs supply result record)
    (again : plan.Runs supply other more) : other = result ∧ more = record := by
  induction runs generalizing other more with
  | give result =>
      cases again
      exact ⟨rfl, rfl⟩
  | enter rest ih =>
      cases again with
      | enter restAgain =>
          obtain ⟨rfl, rfl⟩ := ih restAgain
          exact ⟨rfl, rfl⟩
  | draw rest ih =>
      cases again with
      | draw restAgain =>
          obtain ⟨rfl, rfl⟩ := ih restAgain
          exact ⟨rfl, rfl⟩
  | send errandRuns rest errandIH restIH =>
      cases again with
      | send errandAgain restAgain =>
          obtain ⟨rfl, rfl⟩ := errandIH errandAgain
          obtain ⟨rfl, rfl⟩ := restIH restAgain
          exact ⟨rfl, rfl⟩

theorem Runs.last {supply : NameSupply} {errand : Errand} {answer : Term} {record : List Entry}
    (make : Term → Term) (runs : errand.plan.Runs supply answer record) :
    (Plan.send errand fun answer => .give (make answer)).Runs supply (make answer) record := by
  have whole : (Plan.send errand fun answer => .give (make answer)).Runs supply (make answer)
      (record ++ []) := runs.send (.give (make answer))
  rwa [List.append_nil] at whole

end Plan

theorem runs_walk_renaming (body : Term) (bound renamed : String) (supply : NameSupply)
    (absent : renamed ∉ body.allNames) :
    (Errand.walk body bound (.var renamed none)).plan.Runs supply (body.rename bound renamed) [] := by
  induction body generalizing supply with
  | sort place => exact .give _
  | var other place => exact .give _
  | app function argument place functionIH argumentIH =>
      rw [Term.allNames, List.mem_append, not_or] at absent
      exact (functionIH supply absent.1).send ((argumentIH supply absent.2).last _)
  | bind kind inner domain body place domainIH bodyIH =>
      simp only [Term.allNames, List.cons_append, List.mem_cons, List.mem_append, not_or] at absent
      obtain ⟨notInner, notInDomain, notInBody⟩ := absent
      rw [Term.rename]
      refine Plan.Runs.send (domainIH supply notInDomain) ?_
      show (bodyPlan ..).Runs supply _ []
      by_cases same : inner = bound
      · rw [bodyPlan, if_pos (.inl same), if_pos same]
        exact .give _
      · rw [if_neg same]
        by_cases free : body.hasFree bound = true
        · have goesOn : ¬(inner = bound ∨ ¬body.hasFree bound = true) := by simp [same, free]
          -- The new name is no binder's, so no binder below gives way in its turn.
          have safe : ¬(Term.var renamed none).hasFree inner = true := by
            simpa [Term.hasFree] using Ne.symm notInner
          rw [bodyPlan, if_neg goesOn, if_neg safe]
          exact (bodyIH supply notInBody).last (.bind kind inner (domain.rename bound renamed) · place)
        · have unchanged : body.rename bound renamed = body := by
            rw [Term.rename_eq_plug]
            apply Term.plug_of_not_free
            rwa [← Term.hasFree_iff]
          rw [bodyPlan, if_pos (.inr free), unchanged]
          exact .give _

theorem runs_renaming (body : Term) (bound renamed : String) (supply : NameSupply)
    (absent : renamed ∉ body.allNames) :
    (Errand.substitute body bound (.var renamed none)).plan.Runs supply
      (body.rename bound renamed) (body.renamingRecord bound renamed) := by
  apply Plan.Runs.enter
  exact (runs_walk_renaming body bound renamed _ absent).send (.enter (.give _))

/-- A walk along a term whose names are all in use is the replacement. -/
theorem runs_walk (term : Term) (name : String) (replacement : Term) (supply : NameSupply)
    (prepared : supply.Prepared term name replacement) :
    (Errand.walk term name replacement).plan.Runs supply
      (term.replace name replacement supply).1 (term.replaceRecord name replacement supply) := by
  fun_induction Term.replace term name replacement supply with
  | case1 supply place =>
      rw [Term.replaceRecord]
      exact .give _
  | case2 supply other place =>
      rw [Term.replaceRecord]
      exact .give _
  | case3 supply function argument place newFunction between functionEq newArgument after
      argumentEq functionIH argumentIH =>
      have inFunction := prepared.part (Term.function_names_subset function argument place)
      have inArgument := prepared.part (Term.argument_names_subset function argument place)
      have first := function.records_replace name replacement supply inFunction
      rw [functionEq] at functionIH first
      rw [argumentEq] at argumentIH
      have second := argumentIH (inArgument.later first.grows)
      rw [Term.replaceRecord, functionEq]
      refine Plan.Runs.send (functionIH inFunction) ?_
      rw [first.replay_eq]
      exact second.last (.app newFunction · place)
  | case4 supply kind bound domain body place newDomain after domainEq stops domainIH =>
      have inDomain := prepared.part (Term.domain_names_subset kind bound domain body place)
      rw [domainEq] at domainIH
      rw [Term.replaceRecord, domainEq, if_pos stops]
      refine Plan.Runs.send (domainIH inDomain) ?_
      show (bodyPlan ..).Runs _ _ []
      rw [bodyPlan, if_pos stops]
      exact .give _
  | case5 supply kind bound domain body place newDomain between domainEq goesOn captures renamed
      afterFresh freshEq newBody after bodyEq domainIH bodyIH =>
      have inDomain := prepared.part (Term.domain_names_subset kind bound domain body place)
      have first := domain.records_replace name replacement supply inDomain
      rw [domainEq] at domainIH first
      rw [bodyEq] at bodyIH
      obtain ⟨forRenaming, absent, walkOn⟩ := (prepared.later first.grows).giveWay freshEq
      have entered : between.enter (.drawn bound) = afterFresh := congrArg Prod.snd freshEq
      have relabels := body.records_renaming bound renamed afterFresh forRenaming
      have second := bodyIH walkOn
      rw [Term.replaceRecord, domainEq, if_neg goesOn, if_pos captures, freshEq]
      refine Plan.Runs.send (domainIH inDomain) ?_
      rw [first.replay_eq]
      show (bodyPlan ..).Runs between _ _
      rw [bodyPlan, if_neg goesOn, if_pos captures]
      apply Plan.Runs.draw
      rw [entered, freshEq]
      refine Plan.Runs.send (runs_renaming body bound renamed afterFresh absent) ?_
      rw [relabels.replay_eq]
      exact second.last (.bind kind renamed newDomain · place)
  | case6 supply kind bound domain body place newDomain between domainEq goesOn safe newBody after
      bodyEq domainIH bodyIH =>
      have inDomain := prepared.part (Term.domain_names_subset kind bound domain body place)
      have first := domain.records_replace name replacement supply inDomain
      rw [domainEq] at domainIH first
      rw [bodyEq] at bodyIH
      have atBody := (prepared.part (Term.body_names_subset kind bound domain body place)).later
        first.grows
      have second := bodyIH atBody
      rw [Term.replaceRecord, domainEq, if_neg goesOn, if_neg safe]
      refine Plan.Runs.send (domainIH inDomain) ?_
      rw [first.replay_eq]
      show (bodyPlan ..).Runs between _ _
      rw [bodyPlan, if_neg goesOn, if_neg safe]
      exact second.last (.bind kind bound newDomain · place)

theorem runs_substitute (term : Term) (name : String) (replacement : Term)
    (supply : NameSupply) :
    (Errand.substitute term name replacement).plan.Runs supply
      (term.substituteAvoiding name replacement supply).1
      (term.substitutionRecord name replacement supply) := by
  have walk := runs_walk term name replacement _ (term.prepared_reserve name replacement supply)
  have same : (term.substituteAvoiding name replacement supply).1 =
      (term.replace name replacement
        (supply.reserve (name :: (term.allNames ++ replacement.allNames)))).1 := by
    rw [Term.reserve_eq_prepared]
    rfl
  rw [Term.substitutionRecord, same]
  apply Plan.Runs.enter
  exact walk.send (.enter (.give _))

end Errand

end TypeInType
