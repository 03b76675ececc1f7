import Std.Data.TreeSet.Lemmas
import TypeInType.Term.Names

/-!
A supply of names that are not in use. New names are made by priming: `x'`,
then `x''`, and so on. A supply remembers what it has handed out.
-/

namespace TypeInType

structure NameSupply where
  used : Std.TreeSet String compare

namespace NameSupply

instance : Membership String NameSupply where
  mem supply name := name ∈ supply.used

instance (name : String) (supply : NameSupply) : Decidable (name ∈ supply) :=
  inferInstanceAs (Decidable (name ∈ supply.used))

def empty : NameSupply := ⟨∅⟩

def names (supply : NameSupply) : List String :=
  supply.used.toList

theorem mem_names (supply : NameSupply) (name : String) :
    name ∈ supply.names ↔ name ∈ supply :=
  Std.TreeSet.mem_toList

def insert (supply : NameSupply) (name : String) : NameSupply :=
  ⟨supply.used.insert name⟩

theorem mem_insert (supply : NameSupply) (name other : String) :
    other ∈ supply.insert name ↔ other = name ∨ other ∈ supply := by
  show other ∈ supply.used.insert name ↔ other = name ∨ other ∈ supply.used
  rw [Std.TreeSet.mem_insert, Std.LawfulEqCmp.compare_eq_iff_eq, eq_comm]

def reserve (supply : NameSupply) (names : List String) : NameSupply :=
  names.foldl insert supply

theorem mem_reserve (supply : NameSupply) (names : List String) (name : String) :
    name ∈ supply.reserve names ↔ name ∈ names ∨ name ∈ supply := by
  induction names generalizing supply with
  | nil => simp [reserve]
  | cons first rest ih =>
      show name ∈ (supply.insert first).reserve rest ↔ _
      rw [ih, mem_insert, List.mem_cons]
      exact or_left_comm.trans or_assoc.symm

def reserveTerm (supply : NameSupply) (term : Term) : NameSupply :=
  supply.reserve term.allNames

def ofNames (names : List String) : NameSupply :=
  empty.reserve names

def ofTerms (terms : List Term) : NameSupply :=
  terms.foldl reserveTerm empty

theorem fewer_as_long (names : List String) (name : String) (member : name ∈ names) :
    (names.filter fun other => (name ++ "'").length ≤ other.length).length <
      (names.filter fun other => name.length ≤ other.length).length := by
  have refined : (names.filter fun other => (name ++ "'").length ≤ other.length) =
      (names.filter fun other => name.length ≤ other.length).filter
        fun other => (name ++ "'").length ≤ other.length := by
    rw [List.filter_filter]
    apply List.filter_congr
    intro other _
    rw [Bool.eq_iff_iff, Bool.and_eq_true, decide_eq_true_eq, decide_eq_true_eq,
      String.length_append]
    exact ⟨fun longer => ⟨longer, Nat.le_of_add_right_le longer⟩, And.left⟩
  rw [refined, List.length_filter_lt_length_iff_exists]
  refine ⟨name, List.mem_filter.mpr ⟨member, by simp⟩, ?_⟩
  rw [String.length_append, decide_eq_true_eq]
  exact Nat.not_le.mpr (Nat.lt_add_of_pos_right (by decide))

/-- The candidate with as many more primes as it takes to be unused. Only the
finitely many used names that are at least as long can stand in the way. -/
def leastUnused (supply : NameSupply) (candidate : String) : String :=
  if candidate ∈ supply then supply.leastUnused (candidate ++ "'") else candidate
termination_by (supply.names.filter fun name => candidate.length ≤ name.length).length
decreasing_by
  exact fewer_as_long _ _ ((mem_names _ _).mpr (by assumption))

theorem leastUnused_unused (supply : NameSupply) (candidate : String) :
    supply.leastUnused candidate ∉ supply := by
  fun_induction leastUnused supply candidate with
  | case1 candidate _ ih => exact ih
  | case2 candidate unused => exact unused

def fresh (supply : NameSupply) (name : String) : String × NameSupply :=
  let found := supply.leastUnused (name ++ "'")
  (found, supply.insert found)

theorem fresh_unused (supply : NameSupply) (name : String) : (supply.fresh name).1 ∉ supply :=
  leastUnused_unused _ _

theorem mem_fresh (supply : NameSupply) (name other : String) :
    other ∈ (supply.fresh name).2 ↔ other = (supply.fresh name).1 ∨ other ∈ supply :=
  mem_insert _ _ _

end NameSupply

end TypeInType
