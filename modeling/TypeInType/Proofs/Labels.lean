import TypeInType.Proofs.ReadLabels
import TypeInType.Proofs.Visits

/-!
Substitution, reduction and inlining copy the labels of nodes or leave them out, and the only
new ones are names with more primes, at nodes that keep their place or have none. So whatever
is true of all names and kept by priming, and whatever is true of all places, stays true in all
that a run of a program looks at.
-/

namespace TypeInType

section Labels

variable {named : String → Prop} {placed : Location → Prop}

namespace Term

theorem LabelsAre.substitute {term replacement : Term} (target : String)
    (labels : term.LabelsAre named placed)
    (replacementLabels : replacement.LabelsAre named placed) :
    (term.substitute target replacement).LabelsAre named placed := by
  induction term with
  | sort place => exact labels
  | var other place =>
      rw [Term.substitute]
      split
      · exact replacementLabels
      · exact labels
  | app function argument place functionIH argumentIH =>
      obtain ⟨inFunction, inArgument, here⟩ := labels
      exact ⟨functionIH inFunction, argumentIH inArgument, here⟩
  | bind kind bound domain body place domainIH bodyIH =>
      rw [Term.substitute]
      split
      · exact labels
      · obtain ⟨name, inDomain, inBody, here⟩ := labels
        exact ⟨name, domainIH inDomain, bodyIH inBody, here⟩

theorem LabelsAre.rename {term : Term} (old : String) {new : String}
    (labels : term.LabelsAre named placed) (newNamed : named new) :
    (term.rename old new).LabelsAre named placed := by
  induction term with
  | sort place => exact labels
  | var other place =>
      rw [Term.rename]
      split
      · exact ⟨newNamed, unplaced placed⟩
      · exact labels
  | app function argument place functionIH argumentIH =>
      obtain ⟨inFunction, inArgument, here⟩ := labels
      exact ⟨functionIH inFunction, argumentIH inArgument, here⟩
  | bind kind bound domain body place domainIH bodyIH =>
      obtain ⟨name, inDomain, inBody, here⟩ := labels
      refine ⟨name, domainIH inDomain, ?_, here⟩
      split
      · exact inBody
      · exact bodyIH inBody

end Term

namespace Step

theorem LabelsAre.declared {step : Step} {name : String} {body : Term}
    (labels : step.LabelsAre named placed) (declares : step.declared? = some (name, body)) :
    body.LabelsAre named placed := by
  cases step with
  | define defined value place =>
      cases declares
      exact labels.2.1
  | prove claim place =>
      cases declares
      exact labels.2.2.1
  | express value place => cases declares

theorem LabelsAre.substitute {step : Step} {replacement : Term} (target : String)
    (labels : step.LabelsAre named placed)
    (replacementLabels : replacement.LabelsAre named placed) :
    (step.substitute target replacement).LabelsAre named placed := by
  cases step with
  | define name value place =>
      obtain ⟨declared, inValue, here⟩ := labels
      exact ⟨declared, inValue.substitute target replacementLabels, here⟩
  | prove claim place =>
      obtain ⟨declared, inStatement, inProof, here⟩ := labels
      exact ⟨declared, inStatement.substitute target replacementLabels,
        inProof.substitute target replacementLabels, here⟩
  | express value place =>
      obtain ⟨inValue, here⟩ := labels
      exact ⟨inValue.substitute target replacementLabels, here⟩

end Step

theorem Program.LabelsAre.skip {run : Run}
    (labels : Program.LabelsAre named placed run.remaining) :
    Program.LabelsAre named placed run.skip.remaining := by
  cases standing : run.remaining with
  | nil =>
      rw [Run.skip, standing]
      exact labels
  | cons step rest =>
      rw [(Run.skip_of_cons standing).2.1]
      rw [standing] at labels
      exact (List.forall_mem_cons.mp labels).2

theorem Program.LabelsAre.visited {settings : Settings} {run : Run} {visit : Visit}
    (labels : Program.LabelsAre named placed run.remaining)
    (visited : run.visit? settings = some visit) :
    Program.LabelsAre named placed (visit.step :: visit.rest) := by
  obtain ⟨_, _, standing⟩ := Run.visit?_eq_some_iff.mp visited
  rw [← standing]
  exact labels

/-! New names are made from old ones. -/

section Priming

variable (primes : ∀ name, named name → named (name ++ "'"))

include primes

theorem named_leastUnused (supply : NameSupply) {candidate : String} (isNamed : named candidate) :
    named (supply.leastUnused candidate) := by
  fun_induction NameSupply.leastUnused supply candidate with
  | case1 candidate _ ih => exact ih (primes candidate isNamed)
  | case2 candidate unused => exact isNamed

theorem named_fresh (supply : NameSupply) {name : String} (isNamed : named name) :
    named (supply.fresh name).1 :=
  named_leastUnused primes supply (primes name isNamed)

namespace Term

theorem labelsAre_replace {term replacement : Term} (target : String) (supply : NameSupply)
    (labels : term.LabelsAre named placed)
    (replacementLabels : replacement.LabelsAre named placed) :
    (term.replace target replacement supply).1.LabelsAre named placed := by
  fun_induction replace term target replacement supply with
  | case1 supply place => exact labels
  | case2 supply other place =>
      split
      · exact replacementLabels
      · exact labels
  | case3 supply function argument place newFunction between functionEq newArgument after
      argumentEq functionIH argumentIH =>
      rw [functionEq] at functionIH
      rw [argumentEq] at argumentIH
      obtain ⟨inFunction, inArgument, here⟩ := labels
      exact ⟨functionIH inFunction, argumentIH inArgument, here⟩
  | case4 supply kind bound domain body place newDomain after domainEq stops domainIH =>
      rw [domainEq] at domainIH
      obtain ⟨name, inDomain, inBody, here⟩ := labels
      exact ⟨name, domainIH inDomain, inBody, here⟩
  | case5 supply kind bound domain body place newDomain between domainEq goesOn captures renamed
      afterFresh freshEq newBody after bodyEq domainIH bodyIH =>
      rw [domainEq] at domainIH
      rw [bodyEq] at bodyIH
      obtain ⟨name, inDomain, inBody, here⟩ := labels
      -- The new name is made from the name of the binder.
      have renamedNamed := named_fresh primes between name
      rw [freshEq] at renamedNamed
      exact ⟨renamedNamed, domainIH inDomain, bodyIH (inBody.rename bound renamedNamed), here⟩
  | case6 supply kind bound domain body place newDomain between domainEq goesOn safe newBody after
      bodyEq domainIH bodyIH =>
      rw [domainEq] at domainIH
      rw [bodyEq] at bodyIH
      obtain ⟨name, inDomain, inBody, here⟩ := labels
      exact ⟨name, domainIH inDomain, bodyIH inBody, here⟩

theorem labelsAre_substituteAvoiding {term replacement : Term} (target : String)
    (supply : NameSupply) (labels : term.LabelsAre named placed)
    (replacementLabels : replacement.LabelsAre named placed) :
    (term.substituteAvoiding target replacement supply).1.LabelsAre named placed :=
  labelsAre_replace primes target _ labels replacementLabels

theorem labelsAre_contractLeftmost {term next : Term} {supply after : NameSupply}
    (labels : term.LabelsAre named placed)
    (step : term.contractLeftmost supply = some (next, after)) :
    next.LabelsAre named placed := by
  induction term generalizing next supply after with
  | sort place => simp [contractLeftmost] at step
  | var name place => simp [contractLeftmost] at step
  | app function argument place functionIH argumentIH =>
      obtain ⟨inFunction, inArgument, here⟩ := labels
      rcases function.lambda_or_not with ⟨name, domain, body, binderPlace, rfl⟩ | notLambda
      · rw [contractLeftmost, Option.some.injEq] at step
        obtain ⟨_, _, inBody, _⟩ := inFunction
        have contracted := labelsAre_substituteAvoiding primes name supply inBody inArgument
        rw [step] at contracted
        exact contracted
      · rw [contractLeftmost_app _ _ notLambda] at step
        cases inner : function.contractLeftmost supply with
        | some first =>
            rw [inner] at step
            cases step
            exact ⟨functionIH inFunction inner, inArgument, here⟩
        | none =>
            rw [inner, Option.map_eq_some_iff] at step
            obtain ⟨second, contracted, same⟩ := step
            cases same
            exact ⟨inFunction, argumentIH inArgument contracted, here⟩
  | bind kind name domain body place domainIH bodyIH =>
      obtain ⟨nameNamed, inDomain, inBody, here⟩ := labels
      rw [contractLeftmost] at step
      cases inner : domain.contractLeftmost supply with
      | some first =>
          rw [inner] at step
          cases step
          exact ⟨nameNamed, domainIH inDomain inner, inBody, here⟩
      | none =>
          rw [inner, Option.map_eq_some_iff] at step
          obtain ⟨second, contracted, same⟩ := step
          cases same
          exact ⟨nameNamed, inDomain, bodyIH inBody contracted, here⟩

theorem labelsAre_reduce {context term result : Term} {limit : Int}
    (labels : term.LabelsAre named placed) (returned : reduce context term limit = .ok result) :
    result.LabelsAre named placed :=
  (reduce_keeps (Term.LabelsAre named placed)
    (fun kept step => labelsAre_contractLeftmost primes kept step) labels returned).1

end Term

theorem Step.labelsAre_substituteAvoiding {step : Step} {replacement : Term} (target : String)
    (supply : NameSupply) (labels : step.LabelsAre named placed)
    (replacementLabels : replacement.LabelsAre named placed) :
    (step.substituteAvoiding target replacement supply).1.LabelsAre named placed := by
  cases step with
  | define name value place =>
      obtain ⟨declared, inValue, here⟩ := labels
      exact ⟨declared,
        Term.labelsAre_substituteAvoiding primes target _ inValue replacementLabels, here⟩
  | prove claim place =>
      obtain ⟨declared, inStatement, inProof, here⟩ := labels
      exact ⟨declared,
        Term.labelsAre_substituteAvoiding primes target _ inStatement replacementLabels,
        Term.labelsAre_substituteAvoiding primes target _ inProof replacementLabels, here⟩
  | express value place =>
      obtain ⟨inValue, here⟩ := labels
      exact ⟨Term.labelsAre_substituteAvoiding primes target _ inValue replacementLabels, here⟩

theorem Program.labelsAre_substituteAvoiding {program : Program} {replacement : Term}
    (target : String) (supply : NameSupply) (labels : program.LabelsAre named placed)
    (replacementLabels : replacement.LabelsAre named placed) :
    Program.LabelsAre named placed (program.substituteAvoiding target replacement supply).1 := by
  induction program generalizing supply with
  | nil => exact labels
  | cons step rest ih =>
      obtain ⟨inStep, inRest⟩ := List.forall_mem_cons.mp labels
      rw [Program.substituteAvoiding]
      exact List.forall_mem_cons.mpr
        ⟨Step.labelsAre_substituteAvoiding primes target supply inStep replacementLabels,
          ih _ inRest⟩

theorem Program.labelsAre_inline (settings : Settings) {program : Program} {value : Term}
    (target : String) (labels : program.LabelsAre named placed)
    (valueLabels : value.LabelsAre named placed) :
    Program.LabelsAre named placed (program.inline settings target value) := by
  rw [Program.inline]
  split
  · exact Program.labelsAre_substituteAvoiding primes target _ labels valueLabels
  · intro step member
    obtain ⟨original, inProgram, rfl⟩ := List.mem_map.mp member
    exact (labels original inProgram).substitute target valueLabels

theorem labelsAre_elaborated {settings : Settings} {step : Step} {rest next : Program}
    (labels : Program.LabelsAre named placed (step :: rest))
    (elaborated : (elaborateStep settings step rest).outcome = .ok next) :
    next.LabelsAre named placed := by
  obtain ⟨inStep, inRest⟩ := List.forall_mem_cons.mp labels
  rcases elaborateStep_ok elaborated with ⟨_, rfl⟩ | ⟨name, body, value, declares, reduced, rfl⟩
  · exact inRest
  · have inValue := Term.labelsAre_reduce primes (inStep.declared declares) reduced
    exact Program.labelsAre_inline primes settings name inRest inValue

theorem labelsAre_attempt {settings : Settings} {run : Run} {visit : Visit}
    (labels : Program.LabelsAre named placed run.remaining)
    (visited : run.visit? settings = some visit) :
    Program.LabelsAre named placed (run.attempt settings visit).remaining := by
  have atVisit := labels.visited visited
  cases found : (visit.elaborate settings).outcome with
  | ok next =>
      rw [(Run.attempt_of_ok run found).2.1]
      exact labelsAre_elaborated primes atVisit found
  | error diagnosis =>
      cases halts : settings.haltOnError with
      | true =>
          rw [(Run.attempt_halting run found halts).2.1]
          exact labels
      | false =>
          rw [(Run.attempt_passing run found halts).2.1]
          exact (List.forall_mem_cons.mp atVisit).2

/-- What is true of all labels of a program stays true of all that remains of it, and it is
true of every step that is visited and of the steps behind it. -/
theorem labelsAre_turns (settings : Settings) {program : Program}
    (labels : program.LabelsAre named placed) (count : Nat) :
    Program.LabelsAre named placed (Run.turns settings count (.start program)).remaining ∧
      ∀ visit ∈ Run.visits settings count (.start program),
        Program.LabelsAre named placed (visit.step :: visit.rest) := by
  refine @Run.turns_induction settings (fun run visits =>
    Program.LabelsAre named placed run.remaining ∧
      ∀ visit ∈ visits, Program.LabelsAre named placed (visit.step :: visit.rest)) _ ?_ ?_ ?_ count
  · exact ⟨labels, List.forall_mem_nil _⟩
  · rintro run visits visit ⟨inRemaining, earlier⟩ visited _
    refine ⟨labelsAre_attempt primes inRemaining visited, List.forall_mem_append.mpr ⟨earlier, ?_⟩⟩
    exact List.forall_mem_singleton.mpr (inRemaining.visited visited)
  · rintro run visits visit ⟨inRemaining, earlier⟩ visited _ _ _
    refine ⟨(labelsAre_attempt primes inRemaining visited).skip,
      List.forall_mem_append.mpr ⟨earlier, ?_⟩⟩
    exact List.forall_mem_singleton.mpr (inRemaining.visited visited)

end Priming

end Labels

end TypeInType
