import TypeInType.Proofs.Reading

/-!
Substitution that renames binders, read without bound names: it is the filling of
one free name. The supply must use every name of both terms before the walk
begins, and the walk only ever adds to it; so a renamed binder gets a name that
no part of either term knows.
-/

namespace TypeInType

namespace NameSupply

theorem mem_reserveTerm (supply : NameSupply) (term : Term) (name : String) :
    name ∈ supply.reserveTerm term ↔ name ∈ term.allNames ∨ name ∈ supply :=
  mem_reserve supply term.allNames name

def Grows (supply later : NameSupply) : Prop :=
  ∀ name, name ∈ supply → name ∈ later

/-- Every name that plays a part in a replacement is in use. -/
structure Prepared (supply : NameSupply) (term : Term) (name : String) (replacement : Term) :
    Prop where
  name_used : name ∈ supply
  replacement_used : ∀ used ∈ replacement.allNames, used ∈ supply
  term_used : ∀ used ∈ term.allNames, used ∈ supply

theorem Prepared.part {supply : NameSupply} {whole part replacement : Term} {name : String}
    (prepared : supply.Prepared whole name replacement) (inside : part.allNames ⊆ whole.allNames) :
    supply.Prepared part name replacement :=
  { prepared with term_used := fun used member => prepared.term_used used (inside member) }

theorem Prepared.later {supply after : NameSupply} {term replacement : Term} {name : String}
    (prepared : supply.Prepared term name replacement) (grows : supply.Grows after) :
    after.Prepared term name replacement where
  name_used := grows name prepared.name_used
  replacement_used := fun used member => grows used (prepared.replacement_used used member)
  term_used := fun used member => grows used (prepared.term_used used member)

theorem grows_fresh (supply : NameSupply) (name : String) : supply.Grows (supply.fresh name).2 :=
  fun _ member => (mem_fresh ..).mpr (.inr member)

end NameSupply

namespace Term

theorem mem_allNames_rename (term : Term) (old new name : String)
    (member : name ∈ (term.rename old new).allNames) : name ∈ term.allNames ∨ name = new := by
  induction term with
  | sort place => simp [rename, allNames] at member
  | var other place =>
      by_cases same : other = old
      · simp only [rename, same, if_true, allNames, List.mem_singleton] at member
        exact .inr member
      · simp only [rename, same, if_false] at member
        exact .inl member
  | app function argument place functionIH argumentIH =>
      simp only [rename, allNames, List.mem_append] at member ⊢
      rcases member with inFunction | inArgument
      · exact (functionIH inFunction).imp_left .inl
      · exact (argumentIH inArgument).imp_left .inr
  | bind kind bound domain body place domainIH bodyIH =>
      simp only [rename, allNames, List.cons_append, List.mem_cons, List.mem_append] at member ⊢
      rcases member with same | inDomain | inBody
      · exact .inl (.inl same)
      · exact (domainIH inDomain).imp_left fun found => .inr (.inl found)
      · by_cases shadowed : bound = old
        · rw [if_pos shadowed] at inBody
          exact .inl (.inr (.inr inBody))
        · rw [if_neg shadowed] at inBody
          exact (bodyIH inBody).imp_left fun found => .inr (.inr found)

end Term

theorem NameSupply.Prepared.renamed {supply : NameSupply} {body replacement : Term} {name : String}
    (prepared : supply.Prepared body name replacement) (bound : String) :
    (supply.fresh bound).2.Prepared (body.rename bound (supply.fresh bound).1) name
      replacement where
  name_used := supply.grows_fresh bound _ prepared.name_used
  replacement_used := (prepared.later (supply.grows_fresh bound)).replacement_used
  term_used := by
    intro used member
    rcases body.mem_allNames_rename bound _ used member with old | new
    · exact supply.grows_fresh bound used (prepared.term_used used old)
    · exact (supply.mem_fresh bound used).mpr (.inl new)

namespace Term

/-- A renamed term says of the old name what the term says of the new one, as
long as no binder of the term has the new name. -/
theorem readWith_rename (term : Term) (old new : String) (fresh : new ∉ term.allNames)
    (meaning : String → Nameless) :
    (term.rename old new).readWith meaning =
      term.readWith (Function.update meaning old (meaning new)) := by
  induction term generalizing meaning with
  | sort place => rfl
  | var name place =>
      by_cases same : name = old
      · rw [rename, if_pos same, readWith, readWith, same, Function.update_self]
      · rw [rename, if_neg same, readWith, readWith, Function.update_of_ne same]
  | app function argument place functionIH argumentIH =>
      simp only [allNames, List.mem_append, not_or] at fresh
      rw [rename, readWith, functionIH fresh.1, argumentIH fresh.2, readWith]
  | bind kind bound domain body place domainIH bodyIH =>
      simp only [allNames, List.cons_append, List.mem_cons, List.mem_append, not_or] at fresh
      obtain ⟨newBound, newDomain, newBody⟩ := fresh
      rw [rename, readWith, domainIH newDomain, readWith]
      congr 1
      -- A binder of the old name hides it, so neither side changes anything below.
      by_cases shadowed : bound = old
      · rw [if_pos shadowed, shadowed, meaningUnder_update_self]
      · rw [if_neg shadowed, bodyIH newBody, meaningUnder_of_ne newBound,
          meaningUnder_update_of_ne (Ne.symm shadowed)]

theorem readWith_renamed_binder (body : Term) (bound renamed : String)
    (fresh : renamed ∉ body.allNames) (meaning : String → Nameless) :
    (body.rename bound renamed).readWith (meaningUnder renamed meaning) =
      body.readWith (meaningUnder bound meaning) := by
  rw [readWith_rename body bound renamed fresh]
  apply readWith_congr
  intro name member
  by_cases same : name = bound
  · rw [same, Function.update_self, meaningUnder_self, meaningUnder_self]
  · have differ : name ≠ renamed := by
      rintro rfl
      exact fresh (mem_allNames_of_free _ _ member)
    rw [Function.update_of_ne same, meaningUnder_of_ne differ, meaningUnder_of_ne same]

theorem grows_replace (term : Term) (name : String) (replacement : Term) (supply : NameSupply) :
    supply.Grows (term.replace name replacement supply).2 := by
  fun_induction replace term name replacement supply with
  | case1 supply place => exact fun _ member => member
  | case2 supply other place => exact fun _ member => member
  | case3 supply function argument place newFunction between functionEq newArgument after
      argumentEq functionIH argumentIH =>
      rw [functionEq] at functionIH
      rw [argumentEq] at argumentIH
      exact fun used member => argumentIH used (functionIH used member)
  | case4 supply kind bound domain body place newDomain after domainEq stops domainIH =>
      rw [domainEq] at domainIH
      exact domainIH
  | case5 supply kind bound domain body place newDomain between domainEq goesOn captures renamed
      afterFresh freshEq newBody after bodyEq domainIH bodyIH =>
      have freshGrows := between.grows_fresh bound
      rw [domainEq] at domainIH
      rw [freshEq] at freshGrows
      rw [bodyEq] at bodyIH
      exact fun used member => bodyIH used (freshGrows used (domainIH used member))
  | case6 supply kind bound domain body place newDomain between domainEq goesOn safe newBody after
      bodyEq domainIH bodyIH =>
      rw [domainEq] at domainIH
      rw [bodyEq] at bodyIH
      exact fun used member => bodyIH used (domainIH used member)

/-! Where the names of the parts of a term stand among its own. -/

theorem function_names_subset (function argument : Term) (place : Option Location) :
    function.allNames ⊆ (Term.app function argument place).allNames :=
  List.subset_append_left ..

theorem argument_names_subset (function argument : Term) (place : Option Location) :
    argument.allNames ⊆ (Term.app function argument place).allNames :=
  List.subset_append_right ..

theorem domain_names_subset (kind : BinderKind) (bound : String) (domain body : Term)
    (place : Option Location) :
    domain.allNames ⊆ (Term.bind kind bound domain body place).allNames :=
  List.subset_cons_of_subset _ (List.subset_append_left ..)

theorem body_names_subset (kind : BinderKind) (bound : String) (domain body : Term)
    (place : Option Location) : body.allNames ⊆ (Term.bind kind bound domain body place).allNames :=
  List.subset_cons_of_subset _ (List.subset_append_right ..)

theorem readWith_untouched_body (body : Term) (bound name : String)
    (stops : bound = name ∨ ¬body.hasFree name) (meaning : String → Nameless)
    (value : Nameless) :
    body.readWith (meaningUnder bound meaning) =
      body.readWith (meaningUnder bound (Function.update meaning name value)) := by
  by_cases same : bound = name
  · rw [same, meaningUnder_update_self]
  · have absent : name ∉ body.freeNames := by
      rw [← hasFree_iff]
      exact stops.resolve_left same
    rw [meaningUnder_update_of_ne (Ne.symm same), readWith_update_of_not_free body absent]

theorem meaningUnder_replaced {bound name : String} (differ : name ≠ bound) (replacement : Term)
    (safe : bound ∉ replacement.freeNames) (meaning : String → Nameless) :
    Function.update (meaningUnder bound meaning) name
        (replacement.readWith (meaningUnder bound meaning)) =
      meaningUnder bound (Function.update meaning name (replacement.readWith meaning)) := by
  rw [meaningUnder_update_of_ne differ, readWith_meaningUnder replacement safe]

/-- After a replacement the replaced name means what the replacement means where
the term stands. -/
theorem readWith_replace (term : Term) (name : String) (replacement : Term)
    (supply : NameSupply) (prepared : supply.Prepared term name replacement)
    (meaning : String → Nameless) :
    (term.replace name replacement supply).1.readWith meaning =
      term.readWith (Function.update meaning name (replacement.readWith meaning)) := by
  fun_induction replace term name replacement supply generalizing meaning with
  | case1 supply place => rfl
  | case2 supply other place =>
      by_cases same : other = name
      · simp only [same, if_true, readWith, Function.update_self]
      · simp only [same, if_false, readWith, ne_eq, not_false_eq_true, Function.update_of_ne]
  | case3 supply function argument place newFunction between functionEq newArgument after
      argumentEq functionIH argumentIH =>
      have grows := function.grows_replace name replacement supply
      rw [functionEq] at functionIH grows
      rw [argumentEq] at argumentIH
      simp only [readWith]
      rw [functionIH (prepared.part (function_names_subset ..)),
        argumentIH ((prepared.part (argument_names_subset ..)).later grows)]
  | case4 supply kind bound domain body place newDomain after domainEq stops domainIH =>
      rw [domainEq] at domainIH
      simp only [readWith]
      rw [domainIH (prepared.part (domain_names_subset ..)),
        readWith_untouched_body body bound name stops]
  | case5 supply kind bound domain body place newDomain between domainEq goesOn captures renamed
      afterFresh freshEq newBody after bodyEq domainIH bodyIH =>
      have grows := domain.grows_replace name replacement supply
      rw [domainEq] at domainIH grows
      rw [bodyEq] at bodyIH
      have atBody := (prepared.part (body_names_subset kind bound domain body place)).later grows
      have unused : renamed ∉ between := by
        simpa only [freshEq] using between.fresh_unused bound
      -- The new name is foreign to everything in play before it is itself used.
      have notName : name ≠ renamed := by
        rintro rfl
        exact unused atBody.name_used
      have notInReplacement : renamed ∉ replacement.freeNames := fun member =>
        unused (atBody.replacement_used _ (mem_allNames_of_free _ _ member))
      have notInBody : renamed ∉ body.allNames := fun member =>
        unused (atBody.term_used _ member)
      have preparedBody := atBody.renamed bound
      rw [freshEq] at preparedBody
      simp only [readWith]
      rw [domainIH (prepared.part (domain_names_subset ..)), bodyIH preparedBody,
        meaningUnder_replaced notName _ notInReplacement, readWith_renamed_binder _ _ _ notInBody]
  | case6 supply kind bound domain body place newDomain between domainEq goesOn safe newBody after
      bodyEq domainIH bodyIH =>
      have grows := domain.grows_replace name replacement supply
      rw [domainEq] at domainIH grows
      rw [bodyEq] at bodyIH
      rw [hasFree_iff] at safe
      have differ : name ≠ bound := fun same => goesOn (.inl same.symm)
      simp only [readWith]
      rw [domainIH (prepared.part (domain_names_subset ..)),
        bodyIH ((prepared.part (body_names_subset ..)).later grows),
        meaningUnder_replaced differ _ safe]

theorem prepared_supply (term : Term) (name : String) (replacement : Term) (supply : NameSupply) :
    (((supply.insert name).reserveTerm term).reserveTerm replacement).Prepared term name
      replacement where
  name_used := by simp [NameSupply.mem_reserveTerm, NameSupply.mem_insert]
  replacement_used := fun used member => by simp [NameSupply.mem_reserveTerm, member]
  term_used := fun used member => by simp [NameSupply.mem_reserveTerm, member]

theorem readWith_substituteAvoiding (term : Term) (name : String) (replacement : Term)
    (supply : NameSupply) (meaning : String → Nameless) :
    (term.substituteAvoiding name replacement supply).1.readWith meaning =
      term.readWith (Function.update meaning name (replacement.readWith meaning)) :=
  readWith_replace term name replacement _ (prepared_supply term name replacement supply) meaning

theorem namelessUnder_substituteAvoiding (body : Term) (name : String) (argument : Term)
    (supply : NameSupply) (binders : List String) :
    (body.substituteAvoiding name argument supply).1.namelessUnder binders =
      (body.namelessUnder (name :: binders)).instantiate (argument.namelessUnder binders) := by
  rw [instantiate_namelessUnder, namelessUnder_eq_readWith, namelessUnder_eq_readWith,
    readWith_substituteAvoiding]

end Term

/-! Which names are free can be told from the reading. -/

namespace Nameless

def freeNames : Nameless → List String
  | .sort => []
  | .bound _ => []
  | .free name => [name]
  | .app function argument => function.freeNames ++ argument.freeNames
  | .bind _ domain body => domain.freeNames ++ body.freeNames

theorem freeNames_relabel (label : Nat → Nat) (term : Nameless) :
    (term.relabel label).freeNames = term.freeNames := by
  induction term generalizing label with
  | sort => rfl
  | bound depth => rfl
  | free name => rfl
  | app function argument functionIH argumentIH =>
      simp only [relabel, freeNames, functionIH, argumentIH]
  | bind kind domain body domainIH bodyIH =>
      simp only [relabel, freeNames, domainIH, bodyIH]

theorem freeNames_shift (term : Nameless) : term.shift.freeNames = term.freeNames :=
  freeNames_relabel Nat.succ term

theorem mem_freeNames_fill (names : String → Nameless) (term : Nameless) (name : String) :
    name ∈ (term.fill .bound names).freeNames ↔
      ∃ hole ∈ term.freeNames, name ∈ (names hole).freeNames := by
  induction term generalizing names with
  | sort => simp [fill, freeNames]
  | bound depth => simp [fill, freeNames]
  | free other => simp [fill, freeNames]
  | app function argument functionIH argumentIH =>
      simp only [fill, freeNames, List.mem_append, functionIH, argumentIH, or_and_right, exists_or]
  | bind kind domain body domainIH bodyIH =>
      simp only [fill, lift_bound, freeNames, List.mem_append, domainIH, bodyIH, freeNames_shift,
        or_and_right, exists_or]

theorem mem_freeNames_replaceFree (term : Nameless) (replaced : String) (replacement : Nameless)
    (name : String) :
    name ∈ (term.replaceFree replaced replacement).freeNames ↔
      (name ∈ term.freeNames ∧ name ≠ replaced) ∨
        (replaced ∈ term.freeNames ∧ name ∈ replacement.freeNames) := by
  rw [replaceFree, mem_freeNames_fill]
  constructor
  · rintro ⟨hole, member, inFilling⟩
    by_cases same : hole = replaced
    · subst hole
      rw [if_pos rfl] at inFilling
      exact .inr ⟨member, inFilling⟩
    · simp only [same, if_false, freeNames, List.mem_singleton] at inFilling
      subst name
      exact .inl ⟨member, same⟩
  · rintro (⟨member, differ⟩ | ⟨member, inReplacement⟩)
    · exact ⟨name, member, by simp [differ, freeNames]⟩
    · exact ⟨replaced, member, by simpa using inReplacement⟩

end Nameless

namespace Term

theorem mem_freeNames_namelessUnder (term : Term) (binders : List String) (name : String) :
    name ∈ (term.namelessUnder binders).freeNames ↔ name ∈ term.freeNames ∧ name ∉ binders := by
  induction term generalizing binders with
  | sort place => simp [namelessUnder, Nameless.freeNames, freeNames]
  | var other place =>
      have absent := depth?_eq_none_iff binders other
      simp only [namelessUnder, freeNames, List.mem_singleton]
      cases found : depth? binders other with
      | none =>
          rw [found] at absent
          simp only [Nameless.freeNames, List.mem_singleton]
          exact ⟨fun same => ⟨same, same ▸ absent.mp rfl⟩, And.left⟩
      | some depth =>
          rw [found] at absent
          simp only [Nameless.freeNames, List.not_mem_nil, false_iff, not_and, not_not]
          rintro rfl
          simpa using absent
  | app function argument place functionIH argumentIH =>
      simp only [namelessUnder, Nameless.freeNames, freeNames, List.mem_append, functionIH,
        argumentIH, or_and_right]
  | bind kind bound domain body place domainIH bodyIH =>
      simp only [namelessUnder, Nameless.freeNames, freeNames, List.mem_append, domainIH, bodyIH,
        List.mem_filter, List.mem_cons, not_or, decide_eq_true_eq, or_and_right, and_assoc]

theorem mem_freeNames_nameless (term : Term) (name : String) :
    name ∈ term.nameless.freeNames ↔ name ∈ term.freeNames := by
  simp [nameless, mem_freeNames_namelessUnder]

theorem nameless_substituteAvoiding (term : Term) (name : String) (replacement : Term)
    (supply : NameSupply) :
    (term.substituteAvoiding name replacement supply).1.nameless =
      term.nameless.replaceFree name replacement.nameless := by
  rw [replaceFree_nameless, nameless, namelessUnder_eq_readWith, readWith_substituteAvoiding,
    nameless, namelessUnder_eq_readWith, position_nil]

/-- Substitution never captures, whatever the supply: without bound names it
replaces exactly the free occurrences, so the supply has no say in the meaning of
the result, and the free names are those of the term without the replaced one,
with those of the replacement if there was something to replace. -/
theorem substitution_avoids_capture (term : Term) (name : String) (replacement : Term)
    (supply : NameSupply) :
    let result := (term.substituteAvoiding name replacement supply).1
    result.nameless = term.nameless.replaceFree name replacement.nameless ∧
      (∀ other, result.alphaEquivalent [] (term.substituteAvoiding name replacement other).1) ∧
      ∀ free, free ∈ result.freeNames ↔
        (free ∈ term.freeNames ∧ free ≠ name) ∨
          (name ∈ term.freeNames ∧ free ∈ replacement.freeNames) := by
  have reading := nameless_substituteAvoiding term name replacement
  refine ⟨reading supply, fun other => ?_, fun free => ?_⟩
  · rw [alphaEquivalent_nil_iff, reading supply, reading other]
  · rw [← mem_freeNames_nameless, reading supply, Nameless.mem_freeNames_replaceFree]
    simp only [mem_freeNames_nameless]

end Term

end TypeInType
