import TypeInType.Proofs.Scope

/-!
Terms whose binders all have names of their own. Every term has such variants, and
in a context that is put together from them no lookup captures.
-/

namespace TypeInType.Term

def binderNames : Term → List String
  | .sort _ => []
  | .var _ _ => []
  | .app function argument _ => function.binderNames ++ argument.binderNames
  | .bind _ name domain body _ => name :: (domain.binderNames ++ body.binderNames)

theorem mem_allNames_iff (term : Term) (name : String) :
    name ∈ term.allNames ↔ name ∈ term.freeNames ∨ name ∈ term.binderNames := by
  induction term with
  | sort place => simp [allNames, freeNames, binderNames]
  | var other place => simp [allNames, freeNames, binderNames]
  | app function argument place functionIH argumentIH =>
      simp only [allNames, freeNames, binderNames, List.mem_append, functionIH, argumentIH,
        or_or_or_comm]
  | bind kind bound domain body place domainIH bodyIH =>
      simp only [allNames, freeNames, binderNames, List.cons_append, List.mem_cons,
        List.mem_append, List.mem_filter, decide_eq_true_eq, domainIH, bodyIH]
      by_cases same : name = bound
      · simp [same]
      · simp only [same, false_or, ne_eq, not_false_eq_true, and_true, or_or_or_comm]

theorem binderNames_rename (term : Term) (old new : String) :
    (term.rename old new).binderNames = term.binderNames := by
  induction term with
  | sort place => rfl
  | var name place =>
      rw [rename]
      split <;> rfl
  | app function argument place functionIH argumentIH =>
      rw [rename, binderNames, functionIH, argumentIH, binderNames]
  | bind kind bound domain body place domainIH bodyIH =>
      rw [rename, binderNames, domainIH, binderNames]
      split
      · rfl
      · rw [bodyIH]

theorem exists_unused (names : List String) : ∃ name, name ∉ names := by
  refine ⟨((NameSupply.empty.reserve names).fresh "").1, fun member => ?_⟩
  exact NameSupply.fresh_unused _ _ ((NameSupply.mem_reserve ..).mpr (.inl member))

/-- Binders can be renamed apart from one another and from any names. -/
theorem exists_variant (term : Term) (used : List String) :
    ∃ variant : Term, (∀ meaning, variant.readWith meaning = term.readWith meaning) ∧
      variant.binderNames.Nodup ∧ ∀ name ∈ variant.binderNames, name ∉ used := by
  induction term generalizing used with
  | sort place => exact ⟨.sort place, fun _ => rfl, by simp [binderNames], by simp [binderNames]⟩
  | var name place =>
      exact ⟨.var name place, fun _ => rfl, by simp [binderNames], by simp [binderNames]⟩
  | app function argument place functionIH argumentIH =>
      -- What the first part took counts as used for the second.
      obtain ⟨newFunction, functionReads, functionNodup, functionUnused⟩ := functionIH used
      obtain ⟨newArgument, argumentReads, argumentNodup, argumentUnused⟩ :=
        argumentIH (newFunction.binderNames ++ used)
      simp only [List.mem_append, not_or] at argumentUnused
      refine ⟨.app newFunction newArgument place, fun meaning => ?_, ?_, fun name member => ?_⟩
      · rw [readWith, functionReads, argumentReads, readWith]
      · refine List.nodup_append.mpr ⟨functionNodup, argumentNodup, ?_⟩
        rintro name inFunction other inArgument rfl
        exact (argumentUnused name inArgument).1 inFunction
      · rcases List.mem_append.mp member with inFunction | inArgument
        · exact functionUnused name inFunction
        · exact (argumentUnused name inArgument).2
  | bind kind bound domain body place domainIH bodyIH =>
      obtain ⟨newDomain, domainReads, domainNodup, domainUnused⟩ := domainIH used
      obtain ⟨newBody, bodyReads, bodyNodup, bodyUnused⟩ :=
        bodyIH (newDomain.binderNames ++ used)
      obtain ⟨renamed, fresh⟩ :=
        exists_unused (newDomain.binderNames ++ newBody.allNames ++ used)
      simp only [List.mem_append, not_or] at bodyUnused fresh
      obtain ⟨⟨notInDomain, notInBody⟩, notUsed⟩ := fresh
      have bodyBinders := binderNames_rename newBody bound renamed
      refine ⟨.bind kind renamed newDomain (newBody.rename bound renamed) place, fun meaning => ?_,
        ?_, fun name member => ?_⟩
      · rw [readWith, domainReads, readWith_renamed_binder newBody bound renamed notInBody,
          bodyReads, readWith]
      · rw [binderNames, bodyBinders, List.nodup_cons, List.mem_append, not_or]
        have notBound : renamed ∉ newBody.binderNames :=
          fun binds => notInBody ((mem_allNames_iff ..).mpr (.inr binds))
        refine ⟨⟨notInDomain, notBound⟩, List.nodup_append.mpr ⟨domainNodup, bodyNodup, ?_⟩⟩
        rintro name inDomain other inBody rfl
        exact (bodyUnused name inBody).1 inDomain
      · rw [binderNames, bodyBinders, List.mem_cons, List.mem_append] at member
        rcases member with rfl | inDomain | inBody
        · exact notUsed
        · exact domainUnused name inDomain
        · exact (bodyUnused name inBody).2

structure Distinct (used : List String) (term : Term) : Prop where
  nodup : term.binderNames.Nodup
  unused : ∀ name ∈ term.binderNames, name ∉ used
  not_free : ∀ name ∈ term.binderNames, name ∉ term.freeNames

theorem exists_distinct_variant (term : Term) (used : List String) :
    ∃ variant : Term, term.alphaEquivalent [] variant = true ∧ variant.Distinct used := by
  obtain ⟨variant, reads, nodup, unused⟩ := term.exists_variant (used ++ term.freeNames)
  have same : term.nameless = variant.nameless := by
    rw [nameless, nameless, namelessUnder_eq_readWith, namelessUnder_eq_readWith, reads]
  simp only [List.mem_append, not_or] at unused
  refine ⟨variant, (alphaEquivalent_nil_iff term variant).mpr same, nodup,
    fun name member => (unused name member).1, fun name member free => ?_⟩
  rw [← mem_freeNames_nameless, ← same, mem_freeNames_nameless] at free
  exact (unused name member).2 free

section Parts

variable {used : List String} {kind : BinderKind} {name : String}
  {function argument domain body : Term} {place : Option Location}

theorem Distinct.in_function (distinct : (Term.app function argument place).Distinct used) :
    function.Distinct used where
  nodup := (List.nodup_append.mp distinct.nodup).1
  unused := fun name member => distinct.unused name (List.mem_append_left _ member)
  not_free := fun name member free =>
    distinct.not_free name (List.mem_append_left _ member) (List.mem_append_left _ free)

theorem Distinct.in_argument (distinct : (Term.app function argument place).Distinct used) :
    argument.Distinct used where
  nodup := (List.nodup_append.mp distinct.nodup).2.1
  unused := fun name member => distinct.unused name (List.mem_append_right _ member)
  not_free := fun name member free =>
    distinct.not_free name (List.mem_append_right _ member) (List.mem_append_right _ free)

theorem Distinct.in_domain (distinct : (Term.bind kind name domain body place).Distinct used) :
    domain.Distinct used where
  nodup := (List.nodup_append.mp (List.nodup_cons.mp distinct.nodup).2).1
  unused := fun other member =>
    distinct.unused other (List.mem_cons_of_mem _ (List.mem_append_left _ member))
  not_free := fun other member free =>
    distinct.not_free other (List.mem_cons_of_mem _ (List.mem_append_left _ member))
      (List.mem_append_left _ free)

theorem Distinct.name_not_in_domain
    (distinct : (Term.bind kind name domain body place).Distinct used) :
    name ∉ domain.allNames := by
  rw [mem_allNames_iff, not_or]
  constructor
  · exact fun free => distinct.not_free name List.mem_cons_self (List.mem_append_left _ free)
  · exact fun inDomain =>
      (List.nodup_cons.mp distinct.nodup).1 (List.mem_append_left _ inDomain)

theorem Distinct.in_body {context : Term}
    (distinct : (Term.bind kind name domain body place).Distinct context.allNames) :
    body.Distinct (context.withBinding name domain).allNames := by
  obtain ⟨nameApart, parts⟩ := List.nodup_cons.mp distinct.nodup
  obtain ⟨_, bodyNodup, apart⟩ := List.nodup_append.mp parts
  have below : ∀ other ∈ body.binderNames,
      other ∈ (Term.bind kind name domain body place).binderNames :=
    fun other member => List.mem_cons_of_mem _ (List.mem_append_right _ member)
  have differ : ∀ other ∈ body.binderNames, other ≠ name := by
    rintro other member rfl
    exact nameApart (List.mem_append_right _ member)
  refine ⟨bodyNodup, fun other member => ?_, fun other member free => ?_⟩
  · simp only [withBinding, allNames, List.cons_append, List.mem_cons, List.mem_append, not_or]
    refine ⟨differ other member, fun inDomain => ?_, distinct.unused other (below other member)⟩
    rcases (mem_allNames_iff domain other).mp inDomain with free | binder
    · exact distinct.not_free other (below other member) (List.mem_append_left _ free)
    · exact apart other binder other member rfl
  · refine distinct.not_free other (below other member) (List.mem_append_right _ ?_)
    exact List.mem_filter.mpr ⟨free, decide_eq_true (differ other member)⟩

end Parts

inductive DistinctContext : Term → Prop
  | empty (place : Option Location) : DistinctContext (.sort place)
  | binding {bound : String} {type rest : Term} (place : Option Location) :
      DistinctContext rest → type.Distinct rest.allNames → bound ∉ type.allNames →
        bound ∉ rest.allNames → DistinctContext (.pi bound type rest place)

theorem DistinctContext.withBinding {context : Term} (distinct : context.DistinctContext)
    {kind : BinderKind} {name : String} {domain body : Term} {place : Option Location}
    (binder : (Term.bind kind name domain body place).Distinct context.allNames) :
    (context.withBinding name domain).DistinctContext :=
  .binding none distinct binder.in_domain binder.name_not_in_domain
    (binder.unused name List.mem_cons_self)

theorem lookup?_names_subset {context : Term} {name : String} {type : Term}
    (found : context.lookup? name = some type) : type.allNames ⊆ context.allNames := by
  fun_induction lookup? context name with
  | case1 bound domain rest place =>
      cases found
      exact domain_names_subset ..
  | case2 name bound domain rest place differ ih =>
      exact List.Subset.trans (ih found) (body_names_subset ..)
  | case3 => cases found

theorem lookupClear_of_distinct {context : Term} (distinct : context.DistinctContext)
    (name : String) : context.LookupClear name := by
  induction distinct with
  | empty place =>
      intro type found
      cases found
  | @binding bound domain rest place _ _ notInDomain notInRest ih =>
      intro type found free member since
      have known : free ∈ type.allNames := mem_allNames_of_free free type member
      by_cases here : name = bound
      · subst name
        rw [lookup?_here] at found
        cases found
        rw [boundSince, if_pos rfl, List.mem_singleton] at since
        exact notInDomain (since ▸ known)
      · rw [lookup?_elsewhere here] at found
        rw [boundSince, if_neg (Ne.symm here), List.mem_cons] at since
        rcases since with rfl | later
        · exact notInRest (lookup?_names_subset found known)
        · exact ih type found free member later

end TypeInType.Term
