import Mathlib.Data.List.Forall2
import TypeInType.Program.Run
import TypeInType.Proofs.Congruence

/-!
What inlining means. A definition is gone once it is elaborated: its value stands
wherever the name stood in all that follows, in the values of later definitions as
in the expression. Said with redexes, each definition is put around everything
behind it, and the names that steps give bind nothing. Only where no name is defined
twice, or mentioned before it is defined, is that the same as to bind the names one
inside the other.
-/

namespace TypeInType

structure Definition where
  name : String
  value : Term
  place : Option Location

namespace Definition

def step (definition : Definition) : Step :=
  .define definition.name definition.value definition.place

end Definition

def letIn (name : String) (value body : Term) : Term :=
  .app (.lam name (.sort none) body none) value none

def nested : List Definition → Term → Term
  | [], expression => expression
  | definition :: rest, expression =>
      letIn definition.name definition.value (nested rest expression)

def Definition.around (definition : Definition) (outside : Term → Term) (term : Term) : Term :=
  letIn definition.name (outside definition.value) (outside term)

/-- Each definition is put around all that is behind it, the values of later
definitions and the expression. -/
def inlinedWithin (outside : Term → Term) : List Definition → Term → Term
  | [], expression => outside expression
  | definition :: rest, expression => inlinedWithin (definition.around outside) rest expression

def inlined (definitions : List Definition) (expression : Term) : Term :=
  inlinedWithin id definitions expression

section Meaning

variable {name : String} {value value' body body' : Term}

theorem nameless_letIn (name : String) (value body : Term) :
    (letIn name value body).nameless =
      .app (.bind .lambda .sort (body.namelessUnder [name])) value.nameless := rfl

theorem letIn_congr (name : String) (values : BetaConvertible value value')
    (bodies : BetaConvertible body body') :
    BetaConvertible (letIn name value body) (letIn name value' body') := by
  have inValue : BetaConvertible (letIn name value body) (letIn name value' body) := by
    apply values.map (fun term => nameless_letIn name term body)
    intro term next step
    exact .argument _ step
  have inBody : BetaConvertible (letIn name value' body) (letIn name value' body') := by
    let around (body : Nameless) : Nameless :=
      .app (.bind .lambda .sort (body.fill .bound (Term.position [name]))) value'.nameless
    have reads : ∀ term, (letIn name value' term).nameless = around term.nameless := by
      intro term
      rw [nameless_letIn, Term.namelessUnder_eq_fill]
    apply bodies.map reads
    intro term next step
    exact .function _ (.body .lambda .sort (step.fill _ _))
  exact inValue.trans inBody

theorem substituteAvoiding_convertible (name : String) (value body : Term)
    (supply : NameSupply) :
    BetaConvertible (body.substituteAvoiding name value supply).1 (letIn name value body) := by
  apply BetaConvertible.symm
  apply Relation.EqvGen.rel
  right
  have contracted := Term.namelessUnder_substituteAvoiding body name value supply []
  rw [nameless_letIn]
  show Nameless.Contracts _ ((body.substituteAvoiding name value supply).1.namelessUnder [])
  rw [contracted]
  exact .redex _ _ _

/-- A definition may change places with one that does not bind any name in it. -/
theorem letIn_letIn {outer inner : String} (differ : inner ≠ outer) {outerValue : Term}
    (absent : inner ∉ outerValue.freeNames) (innerValue body : Term) :
    BetaConvertible (letIn outer outerValue (letIn inner innerValue body))
      (letIn inner (letIn outer outerValue innerValue) (letIn outer outerValue body)) := by
  let replaced (term : Term) : Term := (term.substituteAvoiding outer outerValue .empty).1
  have means : ∀ term, BetaConvertible (replaced term) (letIn outer outerValue term) :=
    fun term => substituteAvoiding_convertible outer outerValue term .empty
  -- The substitution goes under the inner binder, as the value has not its name.
  have through : (replaced (letIn inner innerValue body)).nameless =
      (letIn inner (replaced innerValue) (replaced body)).nameless := by
    have reads : ∀ term, (replaced term).nameless =
        term.readWith (Function.update .free outer (outerValue.readWith .free)) := by
      intro term
      rw [Term.nameless, Term.namelessUnder_eq_readWith, Term.position_nil]
      exact Term.readWith_substituteAvoiding ..
    have inside : (replaced body).namelessUnder [inner] =
        body.readWith (Term.meaningUnder inner
          (Function.update .free outer (outerValue.readWith .free))) := by
      rw [Term.namelessUnder_eq_readWith, Term.position_cons, Term.position_nil,
        Term.meaningUnder_update_of_ne differ.symm, ← Term.readWith_meaningUnder _ absent]
      exact Term.readWith_substituteAvoiding ..
    rw [nameless_letIn, inside, reads, reads]
    rfl
  have expanded := letIn_congr inner (means innerValue) (means body)
  exact ((means _).symm.trans (.of_nameless_eq through)).trans expanded

/-- What stands around a term leaves its meaning to it, and can be exchanged with any
definition of the given names. -/
structure Transparent (outside : Term → Term) (names : List String) : Prop where
  congr : ∀ {left right : Term}, BetaConvertible left right →
    BetaConvertible (outside left) (outside right)
  exchange : ∀ name ∈ names, ∀ value body : Term,
    BetaConvertible (outside (letIn name value body)) (letIn name (outside value) (outside body))
  absent : ∀ name ∈ names, ∀ term : Term, name ∉ term.freeNames → name ∉ (outside term).freeNames

theorem Transparent.id (names : List String) : Transparent id names where
  congr := fun convertible => convertible
  exchange := fun _ _ _ _ => .refl _
  absent := fun _ _ _ absent => absent

theorem mem_freeNames_letIn (name : String) (value body : Term) (free : String) :
    free ∈ (letIn name value body).freeNames ↔
      (free ∈ body.freeNames ∧ free ≠ name) ∨ free ∈ value.freeNames := by
  simp [letIn, Term.freeNames]

theorem Transparent.around {outside : Term → Term} {definition : Definition}
    {names : List String} (transparent : Transparent outside (definition.name :: names))
    (apart : ∀ name ∈ names, name ≠ definition.name ∧ name ∉ definition.value.freeNames) :
    Transparent (definition.around outside) names where
  congr := fun convertible => letIn_congr definition.name (.refl _) (transparent.congr convertible)
  exchange := by
    intro name member value body
    obtain ⟨differ, notInValue⟩ := apart name member
    have later := List.mem_cons_of_mem definition.name member
    have inside := transparent.exchange name later value body
    have absent := transparent.absent name later definition.value notInValue
    have opened := letIn_congr definition.name (.refl (outside definition.value)) inside
    exact opened.trans (letIn_letIn differ absent (outside value) (outside body))
  absent := by
    intro name member term notInTerm
    obtain ⟨_, notInValue⟩ := apart name member
    have later := List.mem_cons_of_mem definition.name member
    rw [Definition.around, mem_freeNames_letIn]
    rintro (⟨inTerm, _⟩ | inValue)
    · exact transparent.absent name later term notInTerm inTerm
    · exact transparent.absent name later definition.value notInValue inValue

/-- No name is defined twice, and no value has a name in it that is defined later. -/
def InOrder (definitions : List Definition) : Prop :=
  definitions.Pairwise fun earlier later =>
    later.name ≠ earlier.name ∧ later.name ∉ earlier.value.freeNames

theorem inlinedWithin_convertible {outside : Term → Term} {definitions : List Definition}
    (transparent : Transparent outside (definitions.map Definition.name))
    (inOrder : InOrder definitions) (expression : Term) :
    BetaConvertible (inlinedWithin outside definitions expression)
      (outside (nested definitions expression)) := by
  induction definitions generalizing outside with
  | nil => exact .refl (outside expression)
  | cons definition rest ih =>
      obtain ⟨apart, ordered⟩ := List.pairwise_cons.mp inOrder
      have namesApart : ∀ name ∈ rest.map Definition.name,
          name ≠ definition.name ∧ name ∉ definition.value.freeNames := by
        intro name member
        obtain ⟨later, laterMember, rfl⟩ := List.mem_map.mp member
        exact apart later laterMember
      have inward := ih (transparent.around namesApart) ordered
      have outward := transparent.exchange definition.name List.mem_cons_self definition.value
        (nested rest expression)
      rw [inlinedWithin, nested]
      exact inward.trans outward.symm

/-- In order, it makes no difference which way round the definitions are nested. -/
theorem inlined_convertible_nested {definitions : List Definition}
    (inOrder : InOrder definitions) (expression : Term) :
    BetaConvertible (inlined definitions expression) (nested definitions expression) :=
  inlinedWithin_convertible (.id _) inOrder expression

end Meaning

section Running

variable {settings : Settings}

def RemainWithin (outside : Term → Term) (remaining written : List Definition) : Prop :=
  List.Forall₂ (fun reached definition => reached.name = definition.name ∧
    BetaConvertible reached.value (outside definition.value)) remaining written

def programOf (definitions : List Definition) (expression : Term) (place : Option Location) :
    Program :=
  definitions.map Definition.step ++ [.express expression place]

theorem substituteAvoiding_programOf {outside : Term → Term} {definition : Definition}
    {value : Term} (means : BetaConvertible value (outside definition.value))
    {remaining written : List Definition} (remain : RemainWithin outside remaining written)
    {reached expression : Term} (reaches : BetaConvertible reached (outside expression))
    (place : Option Location) (supply : NameSupply) :
    ∃ after last,
      ((programOf remaining reached place).substituteAvoiding definition.name value supply).1 =
        programOf after last place ∧
      RemainWithin (definition.around outside) after written ∧
        BetaConvertible last (definition.around outside expression) := by
  have replaced : ∀ {term original : Term}, BetaConvertible term (outside original) →
      ∀ supply, BetaConvertible (term.substituteAvoiding definition.name value supply).1
        (definition.around outside original) :=
    fun same supply => (substituteAvoiding_convertible definition.name value _ supply).trans
      (letIn_congr definition.name means same)
  induction remain generalizing supply with
  | nil => exact ⟨[], _, rfl, .nil, replaced reaches supply⟩
  | @cons head original tail originals same _ ih =>
      obtain ⟨sameName, sameValue⟩ := same
      let first := head.value.substituteAvoiding definition.name value supply
      obtain ⟨after, last, restReached, restRemain, lastReached⟩ := ih first.2
      refine ⟨⟨head.name, first.1, head.place⟩ :: after, last, ?_, .cons ?_ restRemain, lastReached⟩
      · exact congrArg (List.cons _) restReached
      · exact ⟨sameName, replaced sameValue supply⟩

/-! What a run has found wrong it does not forget. -/

theorem errors_of_skip (run : Run) : run.skip.errors = run.errors := by
  unfold Run.skip
  split <;> rfl

theorem errors_of_fail (run : Run) (mark : StepMark) (place : Option Location) (rest : Program)
    (diagnosis : Diagnosis) : (run.fail settings mark place rest diagnosis).errors ≠ [] := by
  unfold Run.fail
  split <;> simp

theorem errors_of_turn {run : Run} (succeeds : (run.turn settings).errors = []) :
    run.errors = [] := by
  unfold Run.turn at succeeds
  split at succeeds
  · exact succeeds
  · split at succeeds
    · exact succeeds
    · dsimp only at succeeds
      split at succeeds
      · exact absurd succeeds (errors_of_fail _ _ _ _ _)
      · split at succeeds
        · rw [errors_of_skip] at succeeds
          exact succeeds
        · exact succeeds

theorem errors_of_turns {count : Nat} {run : Run}
    (succeeds : (Run.turns settings count run).errors = []) : run.errors = [] := by
  induction count generalizing run with
  | zero => exact succeeds
  | succ count ih => exact errors_of_turn (ih succeeds)

/-- A turn at a definition that finds nothing wrong replaces the name by the normal
form of the value in all that follows. -/
theorem turn_definition (avoiding : settings.captureAvoiding = true)
    (passes : settings.skipAfterSubstitution = false) {run : Run} {definition : Definition}
    {rest : Program} (remaining : run.remaining = definition.step :: rest)
    (succeeds : (run.turn settings).errors = []) :
    ∃ value, settings.reduce (.sort none) definition.value = .ok value ∧
      (run.turn settings).remaining =
        (rest.substituteAvoiding definition.name value .empty).1 ∧
      (run.turn settings).position = run.position + 1 := by
  have noErrors : run.errors = [] := errors_of_turn succeeds
  have going : run.isOver settings = false := by
    rw [Run.isOver, remaining, Run.ok, noErrors]
    simp
  rw [Run.turn, going, remaining] at succeeds ⊢
  simp only [Bool.false_eq_true, if_false, Definition.step, elaborateStep, elaborateDefinition,
    Step.isDeclaration, passes, Bool.and_false] at succeeds ⊢
  cases reduced : settings.reduce (.sort none) definition.value with
  | error diagnosis =>
      rw [reduced] at succeeds
      exact absurd succeeds (errors_of_fail _ _ _ _ _)
  | ok value =>
      refine ⟨value, rfl, ?_, rfl⟩
      show Program.inline settings rest definition.name value = _
      rw [Program.inline, if_pos avoiding]

/-- Turn by turn, each definition is put around all that is behind it. -/
theorem turns_definitions (avoiding : settings.captureAvoiding = true)
    (passes : settings.skipAfterSubstitution = false) {outside : Term → Term} {run : Run}
    {remaining written : List Definition} (remain : RemainWithin outside remaining written)
    {reached expression : Term} (reaches : BetaConvertible reached (outside expression))
    {place : Option Location} (stands : run.remaining = programOf remaining reached place)
    (succeeds : (Run.turns settings written.length run).errors = []) :
    ∃ final, (Run.turns settings written.length run).remaining = [.express final place] ∧
      (Run.turns settings written.length run).position = run.position + written.length ∧
        BetaConvertible final (inlinedWithin outside written expression) := by
  induction written generalizing outside run remaining reached with
  | nil =>
      cases remain
      exact ⟨reached, stands, rfl, reaches⟩
  | cons definition rest ih =>
      cases remain with
      | @cons head _ tail _ same restRemain =>
          obtain ⟨sameName, sameValue⟩ := same
          obtain ⟨value, reduced, after, position⟩ :=
            turn_definition avoiding passes stands (errors_of_turns succeeds)
          -- One turn puts the reduced value around all that is behind it, and the other turns
          -- start from there.
          have means : BetaConvertible value (outside definition.value) :=
            (reduce_spec reduced).1.symm.trans sameValue
          rw [sameName] at after
          obtain ⟨restAfter, last, restReached, restAround, lastAround⟩ :=
            substituteAvoiding_programOf means restRemain reaches place .empty
          obtain ⟨final, ends, finalPosition, finalMeans⟩ :=
            ih restAround lastAround (after.trans restReached) succeeds
          refine ⟨final, ends, ?_, finalMeans⟩
          rw [List.length_cons, Run.turns, finalPosition, position]
          omega

end Running

/-- When all definitions of a program have been elaborated, the expression is the one
that was written with each definition around all that is behind it. Where no name is
defined twice and no value has a name in it that is defined later, this is the
expression under the definitions, one inside the other. -/
theorem inlining_binds_definitions (settings : Settings)
    (avoiding : settings.captureAvoiding = true)
    (passes : settings.skipAfterSubstitution = false) (definitions : List Definition)
    (expression : Term) (place : Option Location)
    (succeeds : (Run.turns settings definitions.length
      (.start (programOf definitions expression place))).errors = []) :
    ∃ final, (Run.turns settings definitions.length
        (.start (programOf definitions expression place))).remaining = [.express final place] ∧
      (Run.turns settings definitions.length
        (.start (programOf definitions expression place))).position = definitions.length ∧
      BetaConvertible final (inlined definitions expression) ∧
      (InOrder definitions → BetaConvertible final (nested definitions expression)) := by
  have remain : RemainWithin id definitions definitions := by
    rw [RemainWithin, List.forall₂_same]
    exact fun definition _ => ⟨rfl, .refl definition.value⟩
  obtain ⟨final, ends, position, means⟩ :=
    turns_definitions avoiding passes remain (.refl expression) rfl succeeds
  refine ⟨final, ends, position.trans (Nat.zero_add _), means, ?_⟩
  intro inOrder
  exact means.trans (inlined_convertible_nested inOrder expression)

/-- The value of `f` uses the name `A`, which is defined before. -/
theorem inlining_binds_function :
    let settings : Settings := { captureAvoiding := true, skipAfterSubstitution := false }
    let definitions : List Definition := [⟨"A", .sort none, none⟩,
      ⟨"f", .lam "x" (.var "A" none) (.var "x" none) none, none⟩]
    let expression : Term := .app (.var "f" none) (.var "A" none) none
    ∃ final, (Run.turns settings 2 (.start (programOf definitions expression none))).remaining =
        [.express final none] ∧
      BetaConvertible final (nested definitions expression) := by
  intro settings definitions expression
  have succeeds : (Run.turns settings definitions.length
      (.start (programOf definitions expression none))).errors = [] := by
    cbv
  have inOrder : InOrder definitions := by
    simp [InOrder, definitions, Term.freeNames]
  obtain ⟨final, ends, _, _, means⟩ :=
    inlining_binds_definitions settings rfl rfl definitions expression none succeeds
  exact ⟨final, ends, means inOrder⟩

/-- A second definition of `x` comes too late for what the first has replaced, and what
the value of `a` has put in place is open to the definition of `b`. -/
theorem inlining_ignores_redefinition :
    let settings : Settings := { captureAvoiding := true, skipAfterSubstitution := false }
    let repeated : List Definition := [⟨"x", .sort none, none⟩,
      ⟨"x", .lam "y" (.sort none) (.var "y" none) none, none⟩]
    let applied : Term := .app (.var "x" none) (.sort none) none
    let early : List Definition := [⟨"a", .var "b" none, none⟩, ⟨"b", .sort none, none⟩]
    let name : Term := .var "a" none
    (∃ final, (Run.turns settings 2 (.start (programOf repeated applied none))).errors = [] ∧
      (Run.turns settings 2 (.start (programOf repeated applied none))).remaining =
        [.express final none] ∧ ¬BetaConvertible final (nested repeated applied)) ∧
      ∃ final, (Run.turns settings 2 (.start (programOf early name none))).errors = [] ∧
        (Run.turns settings 2 (.start (programOf early name none))).remaining =
          [.express final none] ∧ ¬BetaConvertible final (nested early name) := by
  intro settings repeated applied early name
  constructor
  · refine ⟨.app (.sort none) (.sort none) none, by cbv, by cbv, ?_⟩
    have sequence : (nested repeated applied).nameless.afterLeftmost 3 = some .sort := by
      decide
    exact not_convertible_of_normal (by decide) sequence rfl (by decide)
  · refine ⟨.sort none, by cbv, by cbv, ?_⟩
    have sequence : (nested early name).nameless.afterLeftmost 2 = some (.free "b") := by
      decide
    exact not_convertible_of_normal (by decide) sequence rfl (by decide)

end TypeInType
