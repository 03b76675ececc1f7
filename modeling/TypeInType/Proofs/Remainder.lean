import TypeInType.Proofs.Accounting

/-!
What remains of a program. Behind every definition or theorem that has been
elaborated its normal form stands for its name, in the order of the steps, and
nothing else has changed. All steps behind one take their new names from one
supply, so which names are new also depends on the steps that the cursor has passed
since; up to bound names, and with the naive engine to the letter, each step is
rewritten by itself.
-/

namespace TypeInType

structure Inlining where
  index : Nat
  name : String
  value : Term

namespace Inlining

def into (settings : Settings) (inlining : Inlining) (program : Program) : Program :=
  program.take (inlining.index + 1) ++
    Program.inline settings (program.drop (inlining.index + 1)) inlining.name inlining.value

end Inlining

/-- What a program becomes by inlinings, one after the other. What stands for a name is
the normal form of the term that its step then has. -/
inductive Inlined (settings : Settings) (program : Program) : List Inlining → Program → Prop
  | none : Inlined settings program [] program
  | next {inlinings : List Inlining} {whole : Program} {step : Step} {body : Term}
      (inlining : Inlining) :
      Inlined settings program inlinings whole → whole[inlining.index]? = some step →
        step.declared? = some (inlining.name, body) →
          settings.reduce (.sort none) body = .ok inlining.value →
            Inlined settings program (inlinings ++ [inlining]) (inlining.into settings whole)

def declaredAt (settings : Settings) (visits : List Visit) : List Nat :=
  (visits.filter fun visit => visit.succeeds settings && visit.step.isDeclaration).map Visit.index

/-- The steps that remain are those from the cursor on, once the declarations that were
elaborated before it have been put into all that is behind them. -/
structure Remainder (settings : Settings) (program : Program) (run : Run) (visits : List Visit)
    (inlinings : List Inlining) (whole : Program) : Prop where
  indices : inlinings.map Inlining.index = declaredAt settings visits
  ascending : (inlinings.map Inlining.index).Pairwise (· < ·)
  before : ∀ inlining ∈ inlinings, inlining.index < run.position
  inlined : Inlined settings program inlinings whole
  remaining : run.remaining = whole.drop run.position

theorem drop_behind {whole rest : Program} {step : Step} {index : Nat}
    (standing : step :: rest = whole.drop index) :
    whole[index]? = some step ∧ whole.drop (index + 1) = rest := by
  rw [← List.head?_drop, ← List.tail_drop, ← standing]
  exact ⟨rfl, rfl⟩

theorem drop_into (settings : Settings) (inlining : Inlining) {whole : Program} {step : Step}
    (stands : whole[inlining.index]? = some step) (more : Nat) :
    (inlining.into settings whole).drop (inlining.index + 1 + more) =
      (Program.inline settings (whole.drop (inlining.index + 1)) inlining.name
        inlining.value).drop more := by
  have inside : inlining.index < whole.length := (List.getElem?_eq_some_iff.mp stands).1
  have passed : (whole.take (inlining.index + 1)).length = inlining.index + 1 := by
    rw [List.length_take]
    omega
  rw [Inlining.into, ← List.drop_drop]
  congr 1
  rw [List.drop_append_of_le_length (by omega), List.drop_eq_nil_of_le (by omega), List.nil_append]

/-! Each step by itself. -/

namespace Step

def reading (step : Step) : Outline × List Nameless :=
  (step.outline, step.terms.map Term.nameless)

theorem reading_substituteAvoiding (step : Step) (name : String) (replacement : Term)
    (supply : NameSupply) :
    (step.substituteAvoiding name replacement supply).1.reading =
      (step.outline,
        step.reading.2.map fun term => term.replaceFree name replacement.nameless) := by
  cases step <;>
    simp [substituteAvoiding, reading, outline, kind, label, place, terms,
      Term.nameless_substituteAvoiding]

end Step

namespace Program

/-- Up to bound names it does not matter which supply serves a step. -/
theorem reading_substituteAvoiding (program : Program) (name : String) (replacement : Term)
    (supply : NameSupply) :
    (program.substituteAvoiding name replacement supply).1.map Step.reading =
      (program.map Step.reading).map fun step =>
        (step.1, step.2.map fun term => term.replaceFree name replacement.nameless) := by
  induction program generalizing supply with
  | nil => rfl
  | cons step rest ih =>
      simp only [substituteAvoiding, List.map_cons]
      rw [ih, Step.reading_substituteAvoiding]
      rfl

def inlineAll (settings : Settings) (inlinings : List Inlining) (program : Program) : Program :=
  inlinings.foldl (fun program inlining => program.inline settings inlining.name inlining.value)
    program

end Program

section Behind

variable {settings : Settings} {program whole : Program} {inlinings : List Inlining}

theorem Program.inlineAll_concat (settings : Settings) (inlinings : List Inlining)
    (inlining : Inlining) (program : Program) :
    Program.inlineAll settings (inlinings ++ [inlining]) program =
      Program.inline settings (Program.inlineAll settings inlinings program) inlining.name
        inlining.value := by
  rw [Program.inlineAll, List.foldl_append]
  rfl

theorem Program.inline_drop (naive : settings.captureAvoiding = false) (program : Program)
    (name : String) (value : Term) (count : Nat) :
    (Program.inline settings program name value).drop count =
      Program.inline settings (program.drop count) name value := by
  rw [Program.inline, Program.inline, naive]
  exact List.map_drop.symm

theorem Program.reading_inline (avoiding : settings.captureAvoiding = true) (program : Program)
    (name : String) (value : Term) :
    (Program.inline settings program name value).map Step.reading =
      (program.map Step.reading).map fun step =>
        (step.1, step.2.map fun term => term.replaceFree name value.nameless) := by
  rw [Program.inline, if_pos avoiding]
  exact Program.reading_substituteAvoiding program name value .empty

/-- With the naive engine the steps from the cursor on are those of the program, each
inlining made in them alone. -/
theorem Inlined.drop_naive (naive : settings.captureAvoiding = false)
    (inlined : Inlined settings program inlinings whole) {position : Nat}
    (before : ∀ inlining ∈ inlinings, inlining.index < position) :
    whole.drop position = Program.inlineAll settings inlinings (program.drop position) := by
  induction inlined with
  | none => rfl
  | @next inlinings whole step body inlining _ stands _ _ ih =>
      have rest := ih fun other member => before other (List.mem_append_left _ member)
      have earlier := before inlining (List.mem_append_right _ List.mem_cons_self)
      obtain ⟨more, rfl⟩ := Nat.exists_eq_add_of_le (Nat.succ_le_of_lt earlier)
      calc (inlining.into settings whole).drop (inlining.index + 1 + more)
        _ = (Program.inline settings (whole.drop (inlining.index + 1)) inlining.name
              inlining.value).drop more := drop_into settings inlining stands more
        _ = Program.inline settings ((whole.drop (inlining.index + 1)).drop more) inlining.name
              inlining.value := Program.inline_drop naive ..
        _ = _ := by rw [List.drop_drop, rest, Program.inlineAll_concat]

/-- With the other engine they are so up to bound names. -/
theorem Inlined.reading_drop (avoiding : settings.captureAvoiding = true)
    (inlined : Inlined settings program inlinings whole) {position : Nat}
    (before : ∀ inlining ∈ inlinings, inlining.index < position) :
    (whole.drop position).map Step.reading =
      (Program.inlineAll settings inlinings (program.drop position)).map Step.reading := by
  induction inlined with
  | none => rfl
  | @next inlinings whole step body inlining _ stands _ _ ih =>
      have rest := ih fun other member => before other (List.mem_append_left _ member)
      have earlier := before inlining (List.mem_append_right _ List.mem_cons_self)
      obtain ⟨more, rfl⟩ := Nat.exists_eq_add_of_le (Nat.succ_le_of_lt earlier)
      rw [drop_into settings inlining stands more, Program.inlineAll_concat,
        Program.reading_inline avoiding, ← rest, List.map_drop, Program.reading_inline avoiding,
        ← List.map_drop, ← List.map_drop, List.drop_drop]

end Behind

namespace Remainder

variable {settings : Settings} {program whole : Program} {run : Run} {visits : List Visit}
  {visit : Visit} {inlinings : List Inlining}

theorem advance (remainder : Remainder settings program run visits inlinings whole)
    {step : Step} {rest : Program} (standing : run.remaining = step :: rest) {after : Run}
    {visitsAfter : List Visit} (position : after.position = run.position + 1)
    (remaining : after.remaining = rest)
    (same : declaredAt settings visitsAfter = declaredAt settings visits) :
    Remainder settings program after visitsAfter inlinings whole where
  indices := remainder.indices.trans same.symm
  ascending := remainder.ascending
  before := by
    intro inlining member
    have earlier := remainder.before inlining member
    omega
  inlined := remainder.inlined
  remaining := by
    have behind := drop_behind (standing.symm.trans remainder.remaining)
    rw [remaining, position, behind.2]

theorem declare (remainder : Remainder settings program run visits inlinings whole)
    (visited : run.visit? settings = some visit) {name : String} {body value : Term}
    (declares : visit.step.declared? = some (name, body))
    (reduced : settings.reduce (.sort none) body = .ok value)
    (found : (visit.elaborate settings).outcome = .ok (visit.rest.inline settings name value)) :
    ∃ inlinings whole, Remainder settings program (run.attempt settings visit)
      (visits ++ [visit]) inlinings whole := by
  obtain ⟨_, index, standing⟩ := Run.visit?_eq_some_iff.mp visited
  obtain ⟨position, remaining, _⟩ := Run.attempt_of_ok run found
  obtain ⟨stands, behind⟩ := drop_behind (standing.symm.trans remainder.remaining)
  let inlining : Inlining := ⟨run.position, name, value⟩
  have succeeds : visit.succeeds settings = true := Visit.succeeds_iff.mpr ⟨_, found⟩
  have declaration : visit.step.isDeclaration = true := by
    rw [Step.isDeclaration_eq, declares]
    rfl
  have indices : declaredAt settings (visits ++ [visit]) =
      inlinings.map Inlining.index ++ [run.position] := by
    rw [remainder.indices, index]
    simp [declaredAt, succeeds, declaration]
  refine ⟨inlinings ++ [inlining], inlining.into settings whole, ?_, ?_, ?_, ?_, ?_⟩
  · rw [List.map_append, indices]
    rfl
  · rw [List.map_append]
    apply ascending_next remainder.ascending
    intro other member
    obtain ⟨earlier, inside, rfl⟩ := List.mem_map.mp member
    exact remainder.before earlier inside
  · intro other member
    rw [position]
    rcases List.mem_append.mp member with earlier | last
    · have before := remainder.before other earlier
      omega
    · rw [List.mem_singleton.mp last]
      exact Nat.lt_succ_self _
  · exact remainder.inlined.next inlining stands declares reduced
  · rw [remaining, position]
    have dropped := drop_into settings inlining stands 0
    rw [List.drop_zero] at dropped
    rw [← behind]
    exact dropped.symm

theorem attempt (remainder : Remainder settings program run visits inlinings whole)
    (visited : run.visit? settings = some visit) :
    ∃ inlinings whole, Remainder settings program (run.attempt settings visit)
      (visits ++ [visit]) inlinings whole := by
  obtain ⟨_, _, standing⟩ := Run.visit?_eq_some_iff.mp visited
  cases found : (visit.elaborate settings).outcome with
  | ok next =>
      rcases elaborateStep_ok found with
        ⟨expression, same⟩ | ⟨name, body, value, declares, reduced, same⟩
      · -- An expression declares nothing, so nothing is put in.
        obtain ⟨position, remaining, _⟩ := Run.attempt_of_ok run found
        refine ⟨inlinings, whole, remainder.advance standing position (remaining.trans same) ?_⟩
        simp [declaredAt, Step.isDeclaration_eq, expression]
      · rw [same] at found
        exact remainder.declare visited declares reduced found
  | error diagnosis =>
      have fails : visit.succeeds settings = false := Visit.fails_iff.mpr ⟨diagnosis, found⟩
      have same : declaredAt settings (visits ++ [visit]) = declaredAt settings visits := by
        simp [declaredAt, fails]
      refine ⟨inlinings, whole, ?_⟩
      cases halts : settings.haltOnError with
      | true =>
          -- The cursor stays, and the step that failed still is the first that remains.
          obtain ⟨position, remaining, _⟩ := Run.attempt_halting run found halts
          refine ⟨remainder.indices.trans same.symm, remainder.ascending, ?_, remainder.inlined, ?_⟩
          · rw [position]
            exact remainder.before
          · rw [position, remaining]
            exact remainder.remaining
      | false =>
          obtain ⟨position, remaining, _⟩ := Run.attempt_passing run found halts
          exact remainder.advance standing position remaining same

theorem skip (remainder : Remainder settings program run visits inlinings whole) :
    Remainder settings program run.skip visits inlinings whole := by
  cases standing : run.remaining with
  | nil =>
      rw [Run.skip, standing]
      exact remainder
  | cons step rest =>
      obtain ⟨position, remaining, _⟩ := Run.skip_of_cons standing
      exact remainder.advance standing position remaining rfl

theorem turns (settings : Settings) (program : Program) (count : Nat) :
    ∃ inlinings whole, Remainder settings program (Run.turns settings count (.start program))
      (Run.visits settings count (.start program)) inlinings whole := by
  refine @Run.turns_induction settings (fun run visits => ∃ inlinings whole,
    Remainder settings program run visits inlinings whole) _ ?_ ?_ ?_ count
  · exact ⟨[], program, rfl, .nil, by simp, .none, rfl⟩
  · rintro run visits visit ⟨inlinings, whole, remainder⟩ visited _
    exact remainder.attempt visited
  · rintro run visits visit ⟨_, _, remainder⟩ visited _ _ _
    obtain ⟨inlinings, whole, after⟩ := remainder.attempt visited
    exact ⟨inlinings, whole, after.skip⟩

end Remainder

/-- The moments of a run: before each turn, and between a visit and the skip that may
follow it. -/
inductive Moment (settings : Settings) (program : Program) : Run → List Visit → Prop
  | between (count : Nat) :
      Moment settings program (Run.turns settings count (.start program))
        (Run.visits settings count (.start program))
  | visited (count : Nat) {visit : Visit} :
      (Run.turns settings count (.start program)).visit? settings = some visit →
        Moment settings program ((Run.turns settings count (.start program)).attempt settings visit)
          (Run.visits settings count (.start program) ++ [visit])

/-- At any moment of a run, what remains is what is left of the program once the
declarations elaborated so far have been put, in their order, into all that is behind
them. The naive engine rewrites each step by itself, and the other engine does so up to
bound names. -/
theorem remainder_is_inlined (settings : Settings) (program : Program) {run : Run}
    {visits : List Visit} (moment : Moment settings program run visits) :
    ∃ inlinings whole, Remainder settings program run visits inlinings whole ∧
      (settings.captureAvoiding = false →
        run.remaining = Program.inlineAll settings inlinings (program.drop run.position)) ∧
      (settings.captureAvoiding = true → run.remaining.map Step.reading =
        (Program.inlineAll settings inlinings (program.drop run.position)).map Step.reading) := by
  have holds : ∃ inlinings whole, Remainder settings program run visits inlinings whole := by
    cases moment with
    | between count => exact Remainder.turns settings program count
    | visited count visited =>
        obtain ⟨_, _, remainder⟩ := Remainder.turns settings program count
        exact remainder.attempt visited
  obtain ⟨inlinings, whole, remainder⟩ := holds
  refine ⟨inlinings, whole, remainder, ?_, ?_⟩
  · intro naive
    rw [remainder.remaining]
    exact remainder.inlined.drop_naive naive remainder.before
  · intro avoiding
    rw [remainder.remaining]
    exact remainder.inlined.reading_drop avoiding remainder.before

/-- The function type of `f` has the definition of `A` put in, and the step behind each
definition is elaborated in its turn. -/
theorem remainder_of_function :
    let settings : Settings := { skipAfterSubstitution := false }
    let program : Program := [.define "A" (.sort none) none,
      .define "f" (.lam "x" (.var "A" none) (.var "x" none) none) none,
      .express (.app (.var "f" none) (.var "A" none) none) none]
    let run := Run.turns settings 2 (.start program)
    ∃ inlinings whole, Remainder settings program run (Run.visits settings 2 (.start program))
        inlinings whole ∧
      run.remaining = Program.inlineAll settings inlinings (program.drop run.position) := by
  intro settings program run
  obtain ⟨inlinings, whole, remainder, alone, _⟩ :=
    remainder_is_inlined settings program (.between 2)
  exact ⟨inlinings, whole, remainder, alone rfl⟩

/-- The binder of the last step is named `y''` and not `y'`, as the step that was skipped
has `y'` in it. -/
theorem remainder_avoids_names_of_passed_steps :
    let settings : Settings := { captureAvoiding := true, checkExpressionSteps := true }
    let program : Program := [.define "a" (.var "y" none) none,
      .define "b" (.var "y'" none) none,
      .express (.lam "y" (.sort none) (.var "a" none) none) none]
    (program.run settings).elaborated = ["a"] ∧ (program.run settings).skipped = ["b"] ∧
      (program.run settings).position = 2 ∧
        settings.reduce (.sort none) (.var "y" none) = .ok (.var "y" none) ∧
          (program.run settings).remaining ≠
            Program.inline settings (program.drop 2) "a" (.var "y" none) := by
  intro settings program
  have reduced : settings.reduce (.sort none) (.var "y" none) = .ok (.var "y" none) :=
    reduce_of_isNormal rfl _ _
  have remaining : (program.run settings).remaining =
      [.express (.lam "y''" (.sort none) (.var "y" none) none) none] := by
    cbv
  have alone : Program.inline settings (program.drop 2) "a" (.var "y" none) =
      [.express (.lam "y'" (.sort none) (.var "y" none) none) none] := by
    cbv
  refine ⟨by cbv, by cbv, by cbv, reduced, ?_⟩
  rw [remaining, alone]
  decide

end TypeInType
