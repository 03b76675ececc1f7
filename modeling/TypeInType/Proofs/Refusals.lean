import TypeInType.Proofs.Labels

/-!
Whatever the checker refuses, it says in which judgement, and it points at a place that it has
found in what it looks at, or at none. What a judgement looks at is put together from the
context and the expression it is asked about. Only a text that cannot be read is refused
without a judgement.
-/

namespace TypeInType

/-- The diagnosis names a judgement, and points at such a place or at none. -/
structure Diagnosis.Explains (placed : Location → Prop) (diagnosis : Diagnosis) : Prop where
  judgement : ∃ judgement, diagnosis.cause.details.lookup "judgement" = some (.text judgement)
  place : ∀ here ∈ diagnosis.place, placed here

def Explained {α : Type} (good : α → Prop) (placed : Location → Prop) :
    Except Diagnosis α → Prop
  | .ok value => good value
  | .error diagnosis => diagnosis.Explains placed

theorem Explained.error {α : Type} {good : α → Prop} {placed : Location → Prop} {cause : Cause}
    {place : Option Location} (readable : ∀ message, cause ≠ .badSyntax message)
    (here : ∀ spot ∈ place, placed spot) :
    Explained good placed (.error (.of cause place) : Except Diagnosis α) := by
  refine ⟨?_, here⟩
  cases cause with
  | badSyntax message => exact absurd rfl (readable message)
  | _ => exact ⟨_, rfl⟩

theorem Explained.bind {α β : Type} {good : α → Prop} {after : β → Prop} {placed : Location → Prop}
    {first : Except Diagnosis α} {next : α → Except Diagnosis β}
    (explained : Explained good placed first)
    (nextExplained : ∀ value, good value → Explained after placed (next value)) :
    Explained after placed (first >>= next) := by
  cases first with
  | ok value => exact nextExplained value explained
  | error diagnosis => exact explained

theorem placed_or {placed : Location → Prop} {first second : Option Location}
    (isFirst : ∀ here ∈ first, placed here) (isSecond : ∀ here ∈ second, placed here) :
    ∀ here ∈ first.or second, placed here := by
  cases first with
  | none => exact isSecond
  | some place => exact isFirst

section Judgements

variable {named : String → Prop} {placed : Location → Prop}

namespace Term

theorem LabelsAre.lookup? {context : Term} (labels : context.LabelsAre named placed)
    {name : String} {type : Term} (found : context.lookup? name = some type) :
    type.LabelsAre named placed := by
  fun_induction Term.lookup? context name with
  | case1 domain rest place bound =>
      obtain rfl := Option.some.inj found
      exact labels.2.1
  | case2 name bound domain rest place differ ih => exact ih labels.2.2.1 found
  | case3 => cases found

theorem LabelsAre.withBinding {context type : Term} {name : String}
    (labels : context.LabelsAre named placed) (isNamed : named name)
    (typeLabels : type.LabelsAre named placed) :
    (context.withBinding name type).LabelsAre named placed :=
  ⟨isNamed, typeLabels, labels, unplaced placed⟩

end Term

variable (primes : ∀ name, named name → named (name ++ "'"))

include primes

theorem Term.LabelsAre.instantiate (settings : Settings) {body argument : Term} (name : String)
    (labels : body.LabelsAre named placed) (argumentLabels : argument.LabelsAre named placed) :
    (settings.instantiate body name argument).LabelsAre named placed := by
  rw [Settings.instantiate]
  split
  · exact Term.labelsAre_substituteAvoiding primes name _ labels argumentLabels
  · exact labels.substitute name argumentLabels

variable {settings : Settings}

theorem explained_reduce {context term : Term} (labels : term.LabelsAre named placed) :
    Explained (Term.LabelsAre named placed) placed (settings.reduce context term) := by
  rcases reduce_ok_or_error context term settings.maxReductionSteps with ⟨result, returned⟩ | failed
  · rw [Settings.reduce, returned]
    exact Term.labelsAre_reduce primes labels returned
  · rw [Settings.reduce, failed]
    exact .error (by simp) labels.place

theorem explained_normalType {context expression : Term}
    (explained : Explained (Term.LabelsAre named placed) placed
      (synthesize settings context expression).outcome) :
    Explained (Term.LabelsAre named placed) placed
      (normalType settings context expression).outcome := by
  rw [normalType_outcome]
  exact explained.bind fun type labels => explained_reduce primes labels

theorem explained_applicationType {functionType argumentType function argument : Term}
    {place : Option Location} (typeLabels : functionType.LabelsAre named placed)
    (argumentLabels : argument.LabelsAre named placed) (here : ∀ spot ∈ place, placed spot) :
    Explained (Term.LabelsAre named placed) placed
      (applicationType settings functionType argumentType function argument place) := by
  rw [applicationType.eq_def]
  split
  · obtain ⟨_, _, inCodomain, _⟩ := typeLabels
    split
    · exact inCodomain.instantiate primes settings _ argumentLabels
    · exact .error (by simp) (placed_or argumentLabels.place here)
  · exact .error (by simp) here

theorem answers_explained (settings : Settings) :
    (∀ context expression, context.LabelsAre named placed → expression.LabelsAre named placed →
      Explained (Term.LabelsAre named placed) placed
        (synthesize settings context expression).outcome) ∧
    ∀ context telescope, context.LabelsAre named placed → telescope.LabelsAre named placed →
      Explained (fun _ => True) placed (checkContext settings context telescope).outcome := by
  apply judgements_induction settings
    (fun context expression => context.LabelsAre named placed → expression.LabelsAre named placed →
      Explained (Term.LabelsAre named placed) placed
        (synthesize settings context expression).outcome)
    (fun context telescope => context.LabelsAre named placed → telescope.LabelsAre named placed →
      Explained (fun _ => True) placed (checkContext settings context telescope).outcome)
  case sort =>
    intro context place _ labels
    rw [synthesize_sort]
    exact labels
  case var =>
    intro context name place inContext labels
    rw [synthesize_var]
    split
    · rename_i type found
      exact inContext.lookup? found
    · exact .error (by simp) labels.2
  case app =>
    rintro context function argument place functionIH argumentIH inContext
      ⟨inFunction, inArgument, here⟩
    rw [synthesize_app]
    refine (explained_normalType primes (functionIH inContext inFunction)).bind ?_
    intro functionType functionTypeLabels
    refine (explained_normalType primes (argumentIH inContext inArgument)).bind ?_
    intro argumentType _
    exact explained_applicationType primes functionTypeLabels inArgument here
  case lam =>
    rintro context name domain body place bodyIH inContext ⟨isNamed, inDomain, inBody, here⟩
    have inside := inContext.withBinding isNamed inDomain
    rw [synthesize_lam]
    refine (explained_normalType primes (bodyIH inside inBody)).bind ?_
    intro bodyType bodyTypeLabels
    exact ⟨isNamed, inDomain, bodyTypeLabels, here⟩
  case pi =>
    rintro context name domain body place bodyIH inContext ⟨isNamed, inDomain, inBody, here⟩
    have inside := inContext.withBinding isNamed inDomain
    rw [synthesize_pi]
    refine (bodyIH inside inBody).bind fun valid _ => ?_
    cases valid with
    | true => exact here
    | false => exact .error (by simp) here
  case empty =>
    intro place other _ _
    rw [checkContext_sort]
    trivial
  case lastTelescope =>
    rintro bound type rest place other shaped typeIH ⟨_, inType, inRest, _⟩ _
    rw [checkContext_last_telescope settings shaped]
    exact typeIH inRest inType
  case lastType =>
    rintro bound type rest place other notShaped typeIH ⟨_, inType, inRest, _⟩ _
    rw [checkContext_last_type settings notShaped]
    exact (explained_normalType primes (typeIH inRest inType)).bind fun sort _ => trivial
  case fallsThrough =>
    rintro bound type rest place name domain body other always bodyIH inContext
      ⟨isNamed, inDomain, inBody, _⟩
    rw [checkContext_moves settings (.inl always)]
    exact bodyIH (inContext.withBinding isNamed inDomain) inBody
  case malformed =>
    intro bound type rest place telescope always notSort notPi _ _
    rw [checkContext_malformed settings (.inl always) (Term.isSort_of_ne notSort) notPi]
    trivial
  case unruled =>
    intro bound type rest place telescope strict notSort _ labels
    rw [checkContext_ambiguous settings strict _ _ _ (Term.isSort_of_ne notSort)]
    exact .error (by simp) labels.place
  case moves =>
    rintro context name domain body place notPi bodyIH inContext ⟨isNamed, inDomain, inBody, _⟩
    rw [checkContext_moves_under settings notPi]
    exact bodyIH (inContext.withBinding isNamed inDomain) inBody
  case shapeless =>
    intro context telescope notPi telescopeNotPi notSorts _ _
    rw [checkContext_shapeless settings notPi telescopeNotPi notSorts]
    trivial

theorem explained_typeOf {expression : Term} (labels : expression.LabelsAre named placed) :
    Explained (Term.LabelsAre named placed) placed (typeOf settings expression).outcome := by
  obtain ⟨synthesized, checked⟩ := answers_explained primes settings
  have empty : Term.LabelsAre named placed (.sort none) := unplaced placed
  cases shaped : expression.isTelescope with
  | true =>
      rw [typeOf_telescope settings shaped]
      refine (checked _ _ empty labels).bind fun valid _ => ?_
      cases valid with
      | true => exact labels.place
      | false => exact .error (by simp) labels.place
  | false =>
      rw [typeOf_other settings shaped]
      exact explained_normalType primes (synthesized _ _ empty labels)

theorem explained_checkStatement {claim : Theorem}
    (labels : claim.statement.LabelsAre named placed) :
    Explained (fun warnings => ∀ warning ∈ warnings, warning.Explains placed) placed
      (checkStatement settings claim).outcome := by
  have explained := @explained_typeOf named placed primes settings _ labels
  rw [checkStatement_outcome]
  cases typed : (typeOf settings claim.statement).outcome with
  | ok type => exact List.forall_mem_nil _
  | error diagnosis =>
      rw [typed] at explained
      dsimp only
      split
      · exact List.forall_mem_singleton.mpr explained
      · exact explained

theorem explained_checkProof {claim : Theorem}
    (statementLabels : claim.statement.LabelsAre named placed)
    (proofLabels : claim.proof.LabelsAre named placed) :
    Explained (Term.LabelsAre named placed) placed (checkProof settings claim).outcome := by
  simp only [checkProof, Checked.outcome_bind, Checked.outcome_silent]
  refine (explained_reduce primes statementLabels).bind fun statement _ => ?_
  refine (explained_reduce primes proofLabels).bind fun proof labels => ?_
  refine (explained_typeOf primes proofLabels).bind fun proofType _ => ?_
  split
  · exact labels
  · exact .error (by simp) proofLabels.place

theorem explained_elaborateStep {step : Step} (rest : Program)
    (labels : step.LabelsAre named placed) :
    Explained (fun _ => True) placed (elaborateStep settings step rest).outcome := by
  cases step with
  | define name value place =>
      rw [elaborateStep_define]
      exact (explained_reduce primes labels.2.1).bind fun value _ => trivial
  | prove claim place =>
      obtain ⟨_, inStatement, inProof, _⟩ := labels
      rw [elaborateStep_prove]
      refine (explained_checkStatement primes inStatement).bind fun warnings _ => ?_
      exact (explained_checkProof primes inStatement inProof).bind fun proof _ => trivial
  | express value place =>
      rw [elaborateStep_express]
      split
      · exact (explained_typeOf primes labels.1).bind fun type _ => trivial
      · trivial

theorem explained_warnings {step : Step} (rest : Program) (labels : step.LabelsAre named placed) :
    ∀ warning ∈ (elaborateStep settings step rest).warnings, warning.Explains placed := by
  cases step with
  | define name value place =>
      rw [warnings_define]
      exact List.forall_mem_nil _
  | prove claim place =>
      have explained := @explained_checkStatement named placed primes settings _ labels.2.1
      rw [warnings_prove]
      cases stated : (checkStatement settings claim).outcome with
      | ok warnings =>
          rw [stated] at explained
          exact explained
      | error diagnosis => exact List.forall_mem_nil _
  | express value place =>
      rw [warnings_express]
      exact List.forall_mem_nil _

end Judgements

theorem exists_judgement {settings : Settings} {step : Step} {rest : Program}
    {diagnosis : Diagnosis}
    (found : (elaborateStep settings step rest).outcome = .error diagnosis) :
    ∃ judgement, diagnosis.cause.details.lookup "judgement" = some (.text judgement) := by
  have labels : step.LabelsAre (fun _ => True) fun _ => True :=
    step.namesAre_iff.mp fun _ _ => trivial
  have explained :=
    @explained_elaborateStep _ _ (fun _ _ => trivial) settings step rest labels
  rw [found] at explained
  exact explained.judgement

end TypeInType
