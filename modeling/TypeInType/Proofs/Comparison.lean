import TypeInType.Proofs.Reading

/-!
The comparison of terms up to bound names, as a relation. Under any pairs of binders
it is equality of readings, each term being read under its own side of the pairs; so
pairs can be turned round and chained, and with no pairs the comparison is an
equivalence that every construct of the calculus respects.
-/

namespace TypeInType.Term

/-- The binder of that depth has the name, and no binder nearer to the occurrence has it. -/
def InnermostAt (binders : List String) (name : String) (depth : Nat) : Prop :=
  binders[depth]? = some name ∧ ∀ nearer < depth, binders[nearer]? ≠ some name

theorem depth?_eq_some_iff (binders : List String) (name : String) (depth : Nat) :
    depth? binders name = some depth ↔ InnermostAt binders name depth := by
  rw [depth?, List.findIdx?_eq_some_iff_getElem]
  simp only [decide_eq_true_eq]
  constructor
  · rintro ⟨within, here, nearest⟩
    refine ⟨by rw [List.getElem?_eq_getElem within, here], fun nearer closer => ?_⟩
    rw [List.getElem?_eq_getElem (Nat.lt_trans closer within), ne_eq, Option.some.injEq]
    exact nearest nearer closer
  · rintro ⟨here, nearest⟩
    obtain ⟨within, same⟩ := List.getElem?_eq_some_iff.mp here
    refine ⟨within, same, fun nearer closer found => nearest nearer closer ?_⟩
    rw [List.getElem?_eq_getElem (Nat.lt_trans closer within), found]

theorem position_eq_bound_iff (binders : List String) (name : String) (depth : Nat) :
    position binders name = .bound depth ↔ InnermostAt binders name depth := by
  rw [← depth?_eq_some_iff, position]
  cases depth? binders name <;> simp

theorem position_eq_free_iff (binders : List String) (name : String) :
    position binders name = .free name ↔ name ∉ binders := by
  rw [← depth?_eq_none_iff, position]
  cases depth? binders name <;> simp

/-! Pairs of binders. -/

theorem alphaEquivalent_paired (binders : List String) (term : Term) :
    term.alphaEquivalent (binders.map fun name => (name, name)) term = true := by
  rw [alphaEquivalent_iff, List.map_map, List.map_map]
  rfl

theorem alphaEquivalent_swap (pairs : List (String × String)) (left right : Term) :
    right.alphaEquivalent (pairs.map Prod.swap) left = left.alphaEquivalent pairs right := by
  rw [Bool.eq_iff_iff, alphaEquivalent_iff, alphaEquivalent_iff, List.map_map, List.map_map]
  exact eq_comm

theorem alphaEquivalent_chain (binders : List (String × String × String))
    {left middle right : Term}
    (first : left.alphaEquivalent (binders.map fun names => (names.1, names.2.1)) middle = true)
    (second : middle.alphaEquivalent (binders.map Prod.snd) right = true) :
    left.alphaEquivalent (binders.map fun names => (names.1, names.2.2)) right = true := by
  rw [alphaEquivalent_iff, List.map_map, List.map_map] at *
  exact first.trans second

structure IsCongruence (related : Term → Term → Prop) : Prop where
  equivalence : Equivalence related
  sort : ∀ place other, related (.sort place) (.sort other)
  var : ∀ name place other, related (.var name place) (.var name other)
  app : ∀ {function otherFunction argument otherArgument} (place other),
    related function otherFunction → related argument otherArgument →
      related (.app function argument place) (.app otherFunction otherArgument other)
  bind : ∀ (kind name) {domain otherDomain body otherBody} (place other),
    related domain otherDomain → related body otherBody →
      related (.bind kind name domain body place) (.bind kind name otherDomain otherBody other)

theorem isCongruence_alphaEquivalent :
    IsCongruence fun left right => left.alphaEquivalent [] right = true where
  equivalence := {
    refl := alphaEquivalent_paired []
    symm := fun {left right} same => (alphaEquivalent_swap [] left right).trans same
    trans := alphaEquivalent_chain [] }
  sort := fun _ _ => rfl
  var := fun name place other => by rw [alphaEquivalent_nil_iff]; rfl
  app := by
    intro function otherFunction argument otherArgument place other functions arguments
    rw [alphaEquivalent, functions, arguments]
    rfl
  bind := by
    intro kind name domain otherDomain body otherBody place other domains bodies
    rw [alphaEquivalent_nil_iff] at *
    rw [nameless, namelessUnder, nameless, namelessUnder, Nameless.bind.injEq]
    -- In both bodies the binder has one name, and so binds the same occurrences.
    exact ⟨rfl, domains, (namelessUnder_eq_iff [name] body otherBody).mpr bodies⟩

/-- Under any pairs of binders the comparison says whether both terms have one reading,
in which a name is the depth of its innermost binder, or stays a free name. With no
pairs it is a congruence, and pairs can be turned round and chained. -/
theorem comparison_equates_readings :
    (∀ pairs left right, alphaEquivalent pairs left right = true ↔
      left.namelessUnder (pairs.map Prod.fst) = right.namelessUnder (pairs.map Prod.snd)) ∧
    (∀ binders name place,
      (∀ depth, (Term.var name place).namelessUnder binders = .bound depth ↔
        InnermostAt binders name depth) ∧
      ((Term.var name place).namelessUnder binders = .free name ↔ name ∉ binders)) ∧
    (IsCongruence fun left right => left.alphaEquivalent [] right = true) ∧
    (∀ pairs left right,
      alphaEquivalent (pairs.map Prod.swap) right left = alphaEquivalent pairs left right) ∧
    ∀ (binders : List (String × String × String)) (left middle right : Term),
      left.alphaEquivalent (binders.map fun names => (names.1, names.2.1)) middle = true →
        middle.alphaEquivalent (binders.map Prod.snd) right = true →
          left.alphaEquivalent (binders.map fun names => (names.1, names.2.2)) right = true := by
  refine ⟨alphaEquivalent_iff, fun binders name place => ⟨?_, ?_⟩, isCongruence_alphaEquivalent,
    alphaEquivalent_swap, fun binders _ _ _ => alphaEquivalent_chain binders⟩
  · exact position_eq_bound_iff binders name
  · exact position_eq_free_iff binders name

/-- One name may be paired twice on the left, and differently on the right. -/
example : alphaEquivalent [("x", "y"), ("x", "z")] (.var "x" none) (.var "y" none) = true ∧
    alphaEquivalent [("x", "y"), ("x", "z")] (.var "x" none) (.var "z" none) = false := by
  decide

end TypeInType.Term
