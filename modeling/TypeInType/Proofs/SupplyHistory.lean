import TypeInType.Proofs.Errands

/-!
Histories of one supply: names are drawn and reserved, and substitutions in terms and in whole
programs share it, in any order. The record of a history tells all that happens to the supply,
call by call within the substitutions, so what holds of records holds of histories.
-/

namespace TypeInType

open NameSupply

/-! ## Programs -/

namespace Step

def substitutionRecord (step : Step) (name : String) (replacement : Term) (supply : NameSupply) :
    List Entry :=
  match step with
  | .define _ value _ => value.substitutionRecord name replacement supply
  | .prove claim _ =>
      claim.statement.substitutionRecord name replacement supply ++
        claim.proof.substitutionRecord name replacement
          (claim.statement.substituteAvoiding name replacement supply).2
  | .express value _ => value.substitutionRecord name replacement supply

end Step

namespace Program

def substitutionRecord (program : Program) (name : String) (replacement : Term)
    (supply : NameSupply) : List Entry :=
  match program with
  | [] => []
  | step :: rest =>
      step.substitutionRecord name replacement supply ++
        substitutionRecord rest name replacement
          (step.substituteAvoiding name replacement supply).2

end Program

def rewrites (name : String) (replacement : Term) (terms results : List Term) : List Entry :=
  List.zipWith (.substituted · name replacement ·) terms results

structure NameSupply.Accounts (supply : NameSupply) (record done : List Entry)
    (after : NameSupply) : Prop extends supply.Leads record after where
  listed : done ⊆ record

theorem NameSupply.Accounts.append {supply between after : NameSupply}
    {first second done more : List Entry} (earlier : supply.Accounts first done between)
    (later : between.Accounts second more after) :
    supply.Accounts (first ++ second) (done ++ more) after where
  toLeads := earlier.toLeads.append later.toLeads
  listed := List.append_subset.mpr
    ⟨List.subset_append_of_subset_left _ earlier.listed,
      List.subset_append_of_subset_right _ later.listed⟩

theorem Term.accounts_substituteAvoiding (term : Term) (name : String) (replacement : Term)
    (supply : NameSupply) :
    supply.Accounts (term.substitutionRecord name replacement supply)
      (rewrites name replacement [term] [(term.substituteAvoiding name replacement supply).1])
      (term.substituteAvoiding name replacement supply).2 where
  toLeads := (term.records_substituteAvoiding name replacement supply).toLeads
  listed := by
    intro entry member
    rw [List.mem_singleton.mp member, Term.substitutionRecord]
    exact List.mem_cons_of_mem _ (List.mem_append_right _ (List.mem_singleton_self _))

theorem Step.accounts_substituteAvoiding (step : Step) (name : String) (replacement : Term)
    (supply : NameSupply) :
    supply.Accounts (step.substitutionRecord name replacement supply)
      (rewrites name replacement step.terms
        (step.substituteAvoiding name replacement supply).1.terms)
      (step.substituteAvoiding name replacement supply).2 := by
  cases step with
  | define defined value place =>
      exact value.accounts_substituteAvoiding name replacement supply
  | prove claim place =>
      exact (claim.statement.accounts_substituteAvoiding name replacement supply).append
        (claim.proof.accounts_substituteAvoiding name replacement _)
  | express value place =>
      exact value.accounts_substituteAvoiding name replacement supply

theorem Step.length_terms_substituteAvoiding (step : Step) (name : String) (replacement : Term)
    (supply : NameSupply) :
    (step.substituteAvoiding name replacement supply).1.terms.length = step.terms.length := by
  cases step <;> rfl

theorem Program.accounts_substituteAvoiding (program : Program) (name : String)
    (replacement : Term) (supply : NameSupply) :
    supply.Accounts (program.substitutionRecord name replacement supply)
      (rewrites name replacement (program.flatMap Step.terms)
        ((program.substituteAvoiding name replacement supply).1.flatMap Step.terms))
      (program.substituteAvoiding name replacement supply).2 := by
  induction program generalizing supply with
  | nil => exact ⟨⟨rfl, trivial⟩, List.nil_subset _⟩
  | cons step rest ih =>
      have whole := (step.accounts_substituteAvoiding name replacement supply).append (ih _)
      rw [rewrites, rewrites, ← List.zipWith_append
        (step.length_terms_substituteAvoiding name replacement supply).symm] at whole
      exact whole

/-! ## Histories -/

inductive Operation where
  | fresh (name : String)
  | reserve (names : List String)
  | substitute (term : Term) (name : String) (replacement : Term)
  | inline (program : Program) (name : String) (replacement : Term)

namespace Operation

def after (supply : NameSupply) : Operation → NameSupply
  | .fresh name => (supply.fresh name).2
  | .reserve names => supply.reserve names
  | .substitute term name replacement => (term.substituteAvoiding name replacement supply).2
  | .inline program name replacement => (program.substituteAvoiding name replacement supply).2

def record (supply : NameSupply) : Operation → List Entry
  | .fresh name => [.drawn name]
  | .reserve names => [.reserved names]
  | .substitute term name replacement => term.substitutionRecord name replacement supply
  | .inline program name replacement => program.substitutionRecord name replacement supply

def done (supply : NameSupply) : Operation → List Entry
  | .substitute term name replacement =>
      rewrites name replacement [term] [(term.substituteAvoiding name replacement supply).1]
  | .inline program name replacement =>
      rewrites name replacement (program.flatMap Step.terms)
        ((program.substituteAvoiding name replacement supply).1.flatMap Step.terms)
  | _ => []

def afterAll (supply : NameSupply) (history : List Operation) : NameSupply :=
  history.foldl after supply

def recordOf (supply : NameSupply) : List Operation → List Entry
  | [] => []
  | operation :: rest => operation.record supply ++ recordOf (operation.after supply) rest

def doneIn (supply : NameSupply) : List Operation → List Entry
  | [] => []
  | operation :: rest => operation.done supply ++ doneIn (operation.after supply) rest

theorem accounts_record (supply : NameSupply) (operation : Operation) :
    supply.Accounts (operation.record supply) (operation.done supply)
      (operation.after supply) := by
  cases operation with
  | fresh name => exact ⟨⟨rfl, trivial, trivial⟩, List.nil_subset _⟩
  | reserve names => exact ⟨⟨rfl, trivial, trivial⟩, List.nil_subset _⟩
  | substitute term name replacement =>
      exact term.accounts_substituteAvoiding name replacement supply
  | inline program name replacement =>
      exact program.accounts_substituteAvoiding name replacement supply

theorem accounts_recordOf (supply : NameSupply) (history : List Operation) :
    supply.Accounts (recordOf supply history) (doneIn supply history)
      (afterAll supply history) := by
  induction history generalizing supply with
  | nil => exact ⟨⟨rfl, trivial⟩, List.nil_subset _⟩
  | cons operation rest ih => exact (accounts_record supply operation).append (ih _)

end Operation

/-- In any history of one supply, each name that is handed out, in whatever call, has the fewest
primes that make it new at that moment, and the search for it ends. So it was neither in use at
the start nor reserved nor handed out before, and no two names handed out are the same. The
supply only grows, and when a substitution has come to its end, alone or in a program, all
names of the terms in play and of the result are in use. -/
theorem supply_never_repeats (supply : NameSupply) (history : List Operation) :
    let record := Operation.recordOf supply history
    (supply.replay record = Operation.afterAll supply history ∧
      Operation.doneIn supply history ⊆ record ∧
      ∀ term name replacement start,
        (Errand.substitute term name replacement).plan.Runs start
          (term.substituteAvoiding name replacement start).1
          (term.substitutionRecord name replacement start)) ∧
    (∀ before like later, record = before ++ .drawn like :: later →
      let now := supply.replay before
      let found := (now.fresh like).1
      (∃ count ≤ now.names.length + 1, found = primed like count ∧
        IsLeast {count | 0 < count ∧ primed like count ∉ now} count) ∧
      found ∉ supply ∧ found ∉ before.flatMap Entry.reserves ∧
        found ∉ supply.handedOut before) ∧
    (supply.handedOut record).Nodup ∧
    (∀ before more, (supply.replay before).Grows (supply.replay (before ++ more))) ∧
    ∀ before term name replacement result later,
      record = before ++ .substituted term name replacement result :: later →
        let now := supply.replay before
        name ∈ now ∧
          ∀ used, used ∈ term.allNames ∨ used ∈ replacement.allNames ∨ used ∈ result.allNames →
            used ∈ now := by
  intro record
  have accounts := Operation.accounts_recordOf supply history
  refine ⟨⟨accounts.replay_eq, accounts.listed, Errand.runs_substitute⟩, ?_,
    supply.nodup_handedOut record, ?_, ?_⟩
  · intro before like later _ now found
    have unused : found ∉ supply ∧ found ∉ before.flatMap Entry.reserves ∧
        found ∉ supply.handedOut before := by
      have new := now.fresh_unused like
      rwa [supply.mem_replay, not_or, not_or] at new
    exact ⟨now.fresh_isLeast like, unused⟩
  · intro before more
    rw [replay_append]
    exact (supply.replay before).grows_replay more
  · intro before term name replacement result later split now
    have settled : supply.SettledIn
        (before ++ .substituted term name replacement result :: later) := by
      rw [← split]
      exact accounts.settled
    rw [settledIn_append] at settled
    obtain ⟨_, ⟨prepared, resultUsed⟩, _⟩ := settled
    refine ⟨prepared.name_used, ?_⟩
    rintro used (inTerm | inReplacement | inResult)
    · exact prepared.term_used used inTerm
    · exact prepared.replacement_used used inReplacement
    · exact resultUsed used inResult

/-- The second draw is within the substitution, where the binder gives way. -/
theorem mixed_history_hands_out_new_names :
    let function : Term := .lam "y" (.sort none) (.var "x" none) none
    let renamed : Term := .lam "y''" (.sort none) (.var "y" none) none
    let history : List Operation :=
      [.fresh "y", .substitute function "x" (.var "y" none), .fresh "y"]
    let record := Operation.recordOf .empty history
    let before : List Entry := [.drawn "y", .reserved ["x", "y", "x", "y"]]
    let ofRenaming : List Entry := [.reserved ["y", "x", "y''"],
      .substituted (.var "x" none) "y" (.var "y''" none) (.var "x" none)]
    let ofFunction : Entry := .substituted function "x" (.var "y" none) renamed
    record = before ++ .drawn "y" :: (ofRenaming ++ ofFunction :: [.drawn "y"]) ∧
      IsLeast {count | 0 < count ∧ primed "y" count ∉ NameSupply.empty.replay before} 2 ∧
      (NameSupply.empty.handedOut record).Nodup ∧
      "y''" ∈ NameSupply.empty.replay (before ++ .drawn "y" :: ofRenaming) := by
  intro function renamed history record before ofRenaming ofFunction
  have recorded : record = before ++ .drawn "y" :: (ofRenaming ++ ofFunction :: [.drawn "y"]) := by
    show Operation.recordOf .empty
      [.fresh "y", .substitute function "x" (.var "y" none), .fresh "y"] = _
    cbv
  have found : ((NameSupply.empty.replay before).fresh "y").1 = primed "y" 2 := by
    show ((NameSupply.empty.replay [.drawn "y", .reserved ["x", "y", "x", "y"]]).fresh "y").1 = _
    cbv
  obtain ⟨_, drawn, nodup, _, settled⟩ := supply_never_repeats .empty history
  obtain ⟨⟨count, _, same, least⟩, _⟩ := drawn before "y" _ recorded
  have isTwo : count = 2 := primed_injective "y" (same.symm.trans found)
  obtain ⟨_, inUse⟩ := settled (before ++ .drawn "y" :: ofRenaming) function "x" (.var "y" none)
    renamed [.drawn "y"] recorded
  exact ⟨recorded, isTwo ▸ least, nodup, inUse "y''" (.inr (.inr (by decide)))⟩

end TypeInType
