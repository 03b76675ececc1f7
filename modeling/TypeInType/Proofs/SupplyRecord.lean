import Mathlib.Data.List.Perm.Subperm
import Mathlib.Order.Bounds.Defs
import TypeInType.Proofs.InventedNames

/-!
What is done with a supply of names, as a record: names are reserved, a name is drawn, and
substitutions that share the supply come to their end. Replayed from the supply as it was, a
record tells which names were handed out. A name that is handed out is the first of its kind
that is not in use at that moment, and stays in use, so none is handed out twice. A
substitution leaves a record of its own, however deep the calls in which it draws.
-/

namespace TypeInType

theorem length_primed (name : String) (count : Nat) :
    (primed name count).length = name.length + count := by
  induction count with
  | zero => rfl
  | succ count ih =>
      rw [primed, String.length_append, ih, Nat.add_assoc]
      rfl

theorem primed_injective (name : String) : Function.Injective (primed name) := by
  intro count other same
  have lengths := congrArg String.length same
  rw [length_primed, length_primed] at lengths
  exact Nat.add_left_cancel lengths

namespace NameSupply

/-- Only so many candidates can be in use as there are names in use. -/
theorem count_le_of_primed_used (supply : NameSupply) (name : String) (count : Nat)
    (used : ∀ fewer < count, primed name fewer ∈ supply) : count ≤ supply.names.length := by
  have nodup : ((List.range count).map (primed name)).Nodup :=
    List.nodup_range.map (primed_injective name)
  have inside : (List.range count).map (primed name) ⊆ supply.names := by
    intro candidate member
    obtain ⟨fewer, inRange, rfl⟩ := List.mem_map.mp member
    rw [mem_names]
    exact used fewer (List.mem_range.mp inRange)
  simpa using (nodup.subperm inside).length_le

/-- A new name has as few primes as it can have, but one at least. It is found after no more
candidates than there are names in use. -/
theorem fresh_isLeast (supply : NameSupply) (name : String) :
    ∃ count ≤ supply.names.length + 1, (supply.fresh name).1 = primed name count ∧
      IsLeast {count | 0 < count ∧ primed name count ∉ supply} count := by
  obtain ⟨count, same, passed⟩ := supply.leastUnused_eq_primed (name ++ "'")
  have found : (supply.fresh name).1 = primed name (count + 1) := by
    rw [Nat.add_comm, ← primed_primed]
    exact same
  refine ⟨count + 1, ?_, found, ⟨Nat.succ_pos count, ?_⟩, ?_⟩
  · exact Nat.succ_le_succ (supply.count_le_of_primed_used _ count passed)
  · rw [← found]
    exact supply.fresh_unused name
  · rintro other ⟨positive, unused⟩
    by_contra less
    obtain ⟨fewer, rfl⟩ := Nat.exists_eq_add_of_le' positive
    have inUse := passed fewer (by omega)
    apply unused
    rw [Nat.add_comm, ← primed_primed]
    exact inUse

/-! A name that is in use already leaves a supply as it is. -/

theorem insert_of_mem (supply : NameSupply) (name : String) (used : name ∈ supply) :
    supply.insert name = supply := by
  obtain ⟨⟨⟨tree, balanced⟩⟩⟩ := supply
  have here : tree.contains name = true := used
  simp [insert, Std.TreeSet.insert, Std.TreeMap.insertIfNew, Std.DTreeMap.insertIfNew,
    Std.DTreeMap.Internal.Impl.insertIfNew, here]

theorem reserve_of_mem (supply : NameSupply) (names : List String)
    (used : ∀ name ∈ names, name ∈ supply) : supply.reserve names = supply := by
  induction names with
  | nil => rfl
  | cons name rest ih =>
      rw [List.forall_mem_cons] at used
      show (supply.insert name).reserve rest = supply
      rw [insert_of_mem supply name used.1]
      exact ih used.2

/-! ## Records -/

inductive Entry where
  | reserved (names : List String)
  | drawn (like : String)
  | substituted (term : Term) (name : String) (replacement result : Term)

namespace Entry

def reserves : Entry → List String
  | .reserved names => names
  | _ => []

def Settled (supply : NameSupply) : Entry → Prop
  | .substituted term name replacement result =>
      supply.Prepared term name replacement ∧ ∀ used ∈ result.allNames, used ∈ supply
  | _ => True

end Entry

def enter (supply : NameSupply) : Entry → NameSupply
  | .reserved names => supply.reserve names
  | .drawn like => (supply.fresh like).2
  | .substituted _ _ _ _ => supply

def handsOut (supply : NameSupply) : Entry → List String
  | .drawn like => [(supply.fresh like).1]
  | _ => []

def replay (supply : NameSupply) (record : List Entry) : NameSupply :=
  record.foldl enter supply

def handedOut (supply : NameSupply) : List Entry → List String
  | [] => []
  | entry :: rest => supply.handsOut entry ++ (supply.enter entry).handedOut rest

def SettledIn (supply : NameSupply) : List Entry → Prop
  | [] => True
  | entry :: rest => entry.Settled supply ∧ (supply.enter entry).SettledIn rest

section Records

variable (supply : NameSupply)

theorem mem_enter (entry : Entry) (name : String) :
    name ∈ supply.enter entry ↔
      name ∈ supply ∨ name ∈ entry.reserves ∨ name ∈ supply.handsOut entry := by
  cases entry with
  | reserved names => simp [enter, Entry.reserves, handsOut, mem_reserve, or_comm]
  | drawn like => simp [enter, Entry.reserves, handsOut, mem_fresh, or_comm]
  | substituted term target replacement result => simp [enter, Entry.reserves, handsOut]

theorem replay_append (first second : List Entry) :
    supply.replay (first ++ second) = (supply.replay first).replay second :=
  List.foldl_append

theorem mem_replay (record : List Entry) (name : String) :
    name ∈ supply.replay record ↔
      name ∈ supply ∨ name ∈ record.flatMap Entry.reserves ∨ name ∈ supply.handedOut record := by
  induction record generalizing supply with
  | nil => simp [replay, handedOut]
  | cons entry rest ih =>
      show name ∈ (supply.enter entry).replay rest ↔ _
      rw [ih, mem_enter, List.flatMap_cons, handedOut, List.mem_append, List.mem_append]
      grind

theorem grows_replay (record : List Entry) : supply.Grows (supply.replay record) :=
  fun name used => (supply.mem_replay record name).mpr (.inl used)

theorem handedOut_unused (record : List Entry) :
    ∀ name ∈ supply.handedOut record, name ∉ supply := by
  induction record generalizing supply with
  | nil => exact List.forall_mem_nil _
  | cons entry rest ih =>
      rw [handedOut, List.forall_mem_append]
      constructor
      · cases entry with
        | drawn like =>
            intro name member
            rw [List.mem_singleton.mp member]
            exact supply.fresh_unused like
        | reserved names => exact List.forall_mem_nil _
        | substituted term target replacement result => exact List.forall_mem_nil _
      · intro name member used
        exact ih _ name member ((supply.mem_enter entry name).mpr (.inl used))

theorem nodup_handedOut (record : List Entry) : (supply.handedOut record).Nodup := by
  induction record generalizing supply with
  | nil => exact List.nodup_nil
  | cons entry rest ih =>
      rw [handedOut, List.nodup_append]
      refine ⟨?_, ih _, ?_⟩
      · cases entry <;> simp [handsOut]
      · -- What comes later is new to a supply in which this name is used.
        rintro name member _ later rfl
        exact handedOut_unused _ rest name later
          ((supply.mem_enter entry name).mpr (.inr (.inr member)))

theorem settledIn_append (first second : List Entry) :
    supply.SettledIn (first ++ second) ↔
      supply.SettledIn first ∧ (supply.replay first).SettledIn second := by
  induction first generalizing supply with
  | nil => simp [SettledIn, replay]
  | cons entry rest ih =>
      rw [List.cons_append, SettledIn, SettledIn, ih, and_assoc]
      rfl

end Records

structure Leads (supply : NameSupply) (record : List Entry) (after : NameSupply) : Prop where
  replay_eq : supply.replay record = after
  settled : supply.SettledIn record

/-- Work that gives the result and leaves the supply so may have this record. -/
structure Records (supply : NameSupply) (record : List Entry) (result : Term)
    (after : NameSupply) : Prop extends supply.Leads record after where
  result_used : ∀ used ∈ result.allNames, used ∈ after

section Work

variable {supply between after : NameSupply} {first second : List Entry}

theorem Leads.grows (leads : supply.Leads first after) : supply.Grows after := by
  rw [← leads.replay_eq]
  exact supply.grows_replay first

theorem Leads.append (earlier : supply.Leads first between) (later : between.Leads second after) :
    supply.Leads (first ++ second) after where
  replay_eq := by rw [replay_append, earlier.replay_eq, later.replay_eq]
  settled := by
    rw [settledIn_append, earlier.replay_eq]
    exact ⟨earlier.settled, later.settled⟩

theorem Records.used_later {result : Term} (records : supply.Records first result between)
    (grows : between.Grows after) : ∀ used ∈ result.allNames, used ∈ after :=
  fun used member => grows used (records.result_used used member)

theorem Records.append {part whole : Term} (earlier : supply.Records first part between)
    (later : between.Records second whole after) :
    supply.Records (first ++ second) whole after :=
  { earlier.toLeads.append later.toLeads with result_used := later.result_used }

theorem Records.reserve {names : List String} {result : Term}
    (records : (supply.reserve names).Records first result after) :
    supply.Records (.reserved names :: first) result after :=
  { records with settled := ⟨trivial, records.settled⟩ }

theorem Records.draw {like : String} {result : Term}
    (records : (supply.fresh like).2.Records first result after) :
    supply.Records (.drawn like :: first) result after :=
  { records with settled := ⟨trivial, records.settled⟩ }

theorem Records.close {term replacement result : Term} {name : String}
    (records : supply.Records first result after)
    (prepared : after.Prepared term name replacement) :
    supply.Records (first ++ [.substituted term name replacement result]) result after :=
  records.append
    ⟨⟨rfl, ⟨prepared, records.result_used⟩, trivial⟩, records.result_used⟩

end Work

end NameSupply

/-! ## The record of a substitution -/

/-- When a binder gives way, all is in use that its renaming needs and that the walk on needs,
and the body does not know the new name. -/
theorem NameSupply.Prepared.giveWay {supply after : NameSupply} {kind : BinderKind}
    {bound name renamed : String} {domain body replacement : Term} {place : Option Location}
    (prepared : supply.Prepared (.bind kind bound domain body place) name replacement)
    (freshEq : supply.fresh bound = (renamed, after)) :
    after.Prepared body bound (.var renamed none) ∧ renamed ∉ body.allNames ∧
      after.Prepared (body.rename bound renamed) name replacement := by
  have atBody := prepared.part (Term.body_names_subset kind bound domain body place)
  have boundUsed : bound ∈ supply := prepared.term_used bound List.mem_cons_self
  have walkOn := atBody.renamed bound
  have grows := supply.grows_fresh bound
  have renamedUsed := (supply.mem_fresh bound (supply.fresh bound).1).mpr (.inl rfl)
  have unused := supply.fresh_unused bound
  rw [freshEq] at walkOn grows renamedUsed unused
  refine ⟨⟨?_, ?_, ?_⟩, ?_, walkOn⟩
  · exact grows bound boundUsed
  · exact List.forall_mem_singleton.mpr renamedUsed
  · exact (atBody.later grows).term_used
  · exact fun member => unused (atBody.term_used renamed member)

namespace Term

open NameSupply

/-- The renaming of the body of a binder is a substitution itself. Nothing in the body can
capture the new name, so it draws none. -/
def renamingRecord (body : Term) (bound renamed : String) : List Entry :=
  [.reserved (bound :: (body.allNames ++ [renamed])),
    .substituted body bound (.var renamed none) (body.rename bound renamed)]

def replaceRecord (term : Term) (name : String) (replacement : Term) (supply : NameSupply) :
    List Entry :=
  match term with
  | .sort _ => []
  | .var _ _ => []
  | .app function argument _ =>
      function.replaceRecord name replacement supply ++
        argument.replaceRecord name replacement (function.replace name replacement supply).2
  | .bind _ bound domain body _ =>
      let between := (domain.replace name replacement supply).2
      domain.replaceRecord name replacement supply ++
        if bound = name ∨ ¬body.hasFree name then []
        else if replacement.hasFree bound then
          let (renamed, after) := between.fresh bound
          .drawn bound :: (body.renamingRecord bound renamed ++
            (body.rename bound renamed).replaceRecord name replacement after)
        else body.replaceRecord name replacement between
termination_by term.size
decreasing_by
  all_goals simp only [size, size_rename]
  all_goals omega

def substitutionRecord (term : Term) (name : String) (replacement : Term)
    (supply : NameSupply) : List Entry :=
  .reserved (name :: (term.allNames ++ replacement.allNames)) ::
    (term.replaceRecord name replacement
        (supply.reserve (name :: (term.allNames ++ replacement.allNames))) ++
      [.substituted term name replacement (term.substituteAvoiding name replacement supply).1])

theorem reserve_eq_prepared (term : Term) (name : String) (replacement : Term)
    (supply : NameSupply) :
    supply.reserve (name :: (term.allNames ++ replacement.allNames)) =
      ((supply.insert name).reserveTerm term).reserveTerm replacement :=
  List.foldl_append

theorem prepared_reserve (term : Term) (name : String) (replacement : Term)
    (supply : NameSupply) :
    (supply.reserve (name :: (term.allNames ++ replacement.allNames))).Prepared term name
      replacement := by
  rw [reserve_eq_prepared]
  exact term.prepared_supply name replacement supply

theorem forall_mem_names_bind {holds : String → Prop} (kind : BinderKind) (bound : String)
    (domain body : Term) (place : Option Location) :
    (∀ name ∈ (Term.bind kind bound domain body place).allNames, holds name) ↔
      holds bound ∧ (∀ name ∈ domain.allNames, holds name) ∧ ∀ name ∈ body.allNames, holds name := by
  rw [allNames, List.cons_append, List.forall_mem_cons, List.forall_mem_append]

theorem records_renaming (body : Term) (bound renamed : String) (supply : NameSupply)
    (prepared : supply.Prepared body bound (.var renamed none)) :
    supply.Records (body.renamingRecord bound renamed) (body.rename bound renamed) supply := by
  have renamedUsed : renamed ∈ supply :=
    prepared.replacement_used renamed (List.mem_singleton_self renamed)
  have reserved : supply.reserve (bound :: (body.allNames ++ [renamed])) = supply := by
    apply supply.reserve_of_mem
    rw [List.forall_mem_cons, List.forall_mem_append]
    exact ⟨prepared.name_used, prepared.term_used, prepared.replacement_used⟩
  have resultUsed : ∀ used ∈ (body.rename bound renamed).allNames, used ∈ supply := by
    intro used member
    rcases body.mem_allNames_rename bound renamed used member with old | rfl
    · exact prepared.term_used used old
    · exact renamedUsed
  have idle : supply.Records [] (body.rename bound renamed) supply := ⟨⟨rfl, trivial⟩, resultUsed⟩
  apply Records.reserve
  rw [reserved]
  exact idle.close prepared

theorem records_replace (term : Term) (name : String) (replacement : Term) (supply : NameSupply)
    (prepared : supply.Prepared term name replacement) :
    supply.Records (term.replaceRecord name replacement supply)
      (term.replace name replacement supply).1 (term.replace name replacement supply).2 := by
  fun_induction replace term name replacement supply with
  | case1 supply place =>
      rw [replaceRecord]
      exact ⟨⟨rfl, trivial⟩, List.forall_mem_nil _⟩
  | case2 supply other place =>
      rw [replaceRecord]
      refine ⟨⟨rfl, trivial⟩, ?_⟩
      dsimp only
      split
      · exact prepared.replacement_used
      · exact prepared.term_used
  | case3 supply function argument place newFunction between functionEq newArgument after
      argumentEq functionIH argumentIH =>
      rw [functionEq] at functionIH
      rw [argumentEq] at argumentIH
      have first := functionIH (prepared.part (function_names_subset ..))
      have second := argumentIH ((prepared.part (argument_names_subset ..)).later first.grows)
      rw [replaceRecord, functionEq]
      refine { first.append second with result_used := ?_ }
      rw [allNames, List.forall_mem_append]
      exact ⟨first.used_later second.grows, second.result_used⟩
  | case4 supply kind bound domain body place newDomain after domainEq stops domainIH =>
      rw [domainEq] at domainIH
      have first := domainIH (prepared.part (domain_names_subset ..))
      have later := prepared.later first.grows
      rw [replaceRecord, domainEq, if_pos stops, List.append_nil]
      refine { first with result_used := ?_ }
      have inUse := (forall_mem_names_bind ..).mp later.term_used
      exact (forall_mem_names_bind ..).mpr ⟨inUse.1, first.result_used, inUse.2.2⟩
  | case5 supply kind bound domain body place newDomain between domainEq goesOn captures renamed
      afterFresh freshEq newBody after bodyEq domainIH bodyIH =>
      rw [domainEq] at domainIH
      rw [bodyEq] at bodyIH
      have first := domainIH (prepared.part (domain_names_subset ..))
      -- The binder gives way: one name is drawn, its renaming draws none, and the walk goes on.
      obtain ⟨forRenaming, _, walkOn⟩ := (prepared.later first.grows).giveWay freshEq
      have relabels := body.records_renaming bound renamed afterFresh forRenaming
      have second := bodyIH walkOn
      have drawing : between.Records (.drawn bound :: (body.renamingRecord bound renamed ++
          (body.rename bound renamed).replaceRecord name replacement afterFresh)) newBody after := by
        apply Records.draw
        rw [freshEq]
        exact relabels.append second
      have renamedUsed := forRenaming.replacement_used renamed (List.mem_singleton_self renamed)
      rw [replaceRecord, domainEq, if_neg goesOn, if_pos captures, freshEq]
      refine { first.append drawing with result_used := ?_ }
      exact (forall_mem_names_bind ..).mpr
        ⟨second.grows renamed renamedUsed, first.used_later drawing.grows, second.result_used⟩
  | case6 supply kind bound domain body place newDomain between domainEq goesOn safe newBody after
      bodyEq domainIH bodyIH =>
      rw [domainEq] at domainIH
      rw [bodyEq] at bodyIH
      have first := domainIH (prepared.part (domain_names_subset ..))
      have later := prepared.later first.grows
      have second := bodyIH (later.part (body_names_subset ..))
      have boundUsed := later.term_used bound List.mem_cons_self
      rw [replaceRecord, domainEq, if_neg goesOn, if_neg safe]
      refine { first.append second with result_used := ?_ }
      exact (forall_mem_names_bind ..).mpr
        ⟨second.grows bound boundUsed, first.used_later second.grows, second.result_used⟩

theorem records_substituteAvoiding (term : Term) (name : String) (replacement : Term)
    (supply : NameSupply) :
    supply.Records (term.substitutionRecord name replacement supply)
      (term.substituteAvoiding name replacement supply).1
      (term.substituteAvoiding name replacement supply).2 := by
  have prepared := term.prepared_reserve name replacement supply
  have walk := term.records_replace name replacement _ prepared
  rw [reserve_eq_prepared] at walk prepared
  apply Records.reserve
  rw [reserve_eq_prepared]
  exact walk.close (prepared.later walk.grows)

end Term

end TypeInType
