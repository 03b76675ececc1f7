import TypeInType.Proofs.FreeNames
import TypeInType.Proofs.Labels
import TypeInType.Proofs.RoundTrip

/-!
Which names a reduction or a run can come up with. A new name is that of a binder with one or
more primes, and it is new to the term and to the context that a reduction starts from. So
whatever is true of all names in a program and is kept by priming is true of all names in what
remains of it. A primed name can be written as well as the name itself.
-/

namespace TypeInType

theorem isName_prime {name : String} (isName : IsName name) : IsName (name ++ "'") := by
  obtain ⟨⟨first, tail, word, starts, whole⟩, _⟩ := isName
  obtain ⟨chars, primes, split, areChars, arePrimes⟩ := nameTail_parts tail
  rw [whole] at split
  have ends : (name ++ "'").toList = first :: (tail ++ ['\'']) := by
    rw [String.toList_append, word]
    rfl
  constructor
  · refine ⟨first, tail ++ ['\''], ends, starts, ?_⟩
    have morePrimes : ∀ char ∈ primes ++ ['\''], isPrime char = true := by
      intro char member
      rcases List.mem_append.mp member with before | last
      · exact arePrimes char before
      · rw [List.mem_singleton.mp last]
        decide
    have tailIs := nameTail_of_parts areChars morePrimes stopsWord_nil
    rw [List.append_nil] at tailIs
    rw [split, List.append_assoc]
    exact tailIs
  · -- A keyword would have to end in the new prime.
    have differ : ∀ keyword : String, keyword.toList.getLast? ≠ some '\'' →
        name ++ "'" ≠ keyword := by
      rintro keyword notPrime rfl
      apply notPrime
      rw [ends, ← List.cons_append, List.getLast?_concat]
    rw [TokenKind.ofWord, if_neg (differ "let" (by decide)), if_neg (differ "theorem" (by decide)),
      if_neg (differ "fun" (by decide)), if_neg (differ "forall" (by decide)),
      if_neg (differ "Type" (by decide))]

/-! ## What is true of all names -/

section Priming

variable {good : String → Prop} (primes : ∀ name, good name → good (name ++ "'"))

include primes

theorem Term.namesAre_reduce {context term result : Term} {limit : Int}
    (names : term.NamesAre good) (returned : reduce context term limit = .ok result) :
    result.NamesAre good := by
  rw [Term.namesAre_iff] at names ⊢
  exact Term.labelsAre_reduce primes names returned

/-- What is true of all names of a program and kept by priming stays true in all that
remains of it. -/
theorem namesAre_remaining (settings : Settings) {program : Program}
    (names : program.NamesAre good) (count : Nat) :
    Program.NamesAre good (Run.turns settings count (.start program)).remaining := by
  rw [Program.namesAre_iff] at names ⊢
  exact (labelsAre_turns primes settings names count).1

end Priming

/-! ## Where new names come from -/

def primed (name : String) : Nat → String
  | 0 => name
  | count + 1 => primed name count ++ "'"

theorem primed_primed (name : String) (first later : Nat) :
    primed (primed name first) later = primed name (first + later) := by
  induction later with
  | zero => rfl
  | succ later ih => rw [primed, ih, Nat.add_succ, primed]

namespace NameSupply

variable {supply later : NameSupply} {binder name : String}

/-- A binder of the one name may get the other: it keeps its own, or it gets one that is not
in use. -/
def Renames (supply : NameSupply) (binder name : String) : Prop :=
  name = binder ∨ (∃ count, name = primed binder (count + 1)) ∧ name ∉ supply

/-- The search passes over names with fewer primes, all of them in use. -/
theorem leastUnused_eq_primed (supply : NameSupply) (candidate : String) :
    ∃ count, supply.leastUnused candidate = primed candidate count ∧
      ∀ fewer < count, primed candidate fewer ∈ supply := by
  fun_induction leastUnused supply candidate with
  | case1 candidate used ih =>
      obtain ⟨count, same, passed⟩ := ih
      have shifted : ∀ more, primed (candidate ++ "'") more = primed candidate (more + 1) := by
        intro more
        rw [Nat.add_comm]
        exact primed_primed candidate 1 more
      refine ⟨count + 1, same.trans (shifted count), ?_⟩
      intro fewer less
      cases fewer with
      | zero => exact used
      | succ fewer =>
          rw [← shifted]
          exact passed fewer (Nat.lt_of_succ_lt_succ less)
  | case2 candidate _ => exact ⟨0, rfl, fun fewer less => absurd less (Nat.not_lt_zero fewer)⟩

theorem renames_fresh (supply : NameSupply) (name : String) :
    supply.Renames name (supply.fresh name).1 := by
  obtain ⟨count, same, _⟩ := supply.leastUnused_eq_primed (name ++ "'")
  right
  constructor
  · refine ⟨count, same.trans ?_⟩
    rw [Nat.add_comm]
    exact primed_primed name 1 count
  · exact supply.fresh_unused name

theorem Renames.earlier (renames : later.Renames binder name) (grows : supply.Grows later) :
    supply.Renames binder name :=
  renames.imp_right fun invented => ⟨invented.1, fun used => invented.2 (grows name used)⟩

theorem Renames.trans {first : String} (earlier : supply.Renames first binder)
    (renames : supply.Renames binder name) : supply.Renames first name := by
  rcases renames with rfl | ⟨⟨count, rfl⟩, unused⟩
  · exact earlier
  · rcases earlier with rfl | ⟨⟨before, rfl⟩, _⟩
    · exact .inr ⟨⟨count, rfl⟩, unused⟩
    · exact .inr ⟨⟨before + 1 + count, primed_primed _ _ _⟩, unused⟩

def Yields (supply : NameSupply) (binders names : List String) : Prop :=
  ∀ name ∈ names, ∃ binder ∈ binders, supply.Renames binder name

section Yields

variable {binders more names others : List String}

theorem Yields.of_subset (inside : names ⊆ binders) : supply.Yields binders names :=
  fun name member => ⟨name, inside member, .inl rfl⟩

theorem Yields.refl (names : List String) : supply.Yields names names :=
  .of_subset (List.Subset.refl names)

theorem Yields.mono (yields : supply.Yields binders names) (inside : binders ⊆ more) :
    supply.Yields more names := by
  intro name member
  obtain ⟨binder, found, renames⟩ := yields name member
  exact ⟨binder, inside found, renames⟩

theorem Yields.append (left : supply.Yields binders names) (right : supply.Yields binders others) :
    supply.Yields binders (names ++ others) :=
  List.forall_mem_append.mpr ⟨left, right⟩

theorem Yields.parts {first second : List String} (left : supply.Yields first names)
    (right : supply.Yields second others) :
    supply.Yields (first ++ second) (names ++ others) :=
  (left.mono (List.subset_append_left ..)).append (right.mono (List.subset_append_right ..))

theorem Yields.earlier (yields : later.Yields binders names) (grows : supply.Grows later) :
    supply.Yields binders names := by
  intro name member
  obtain ⟨binder, found, renames⟩ := yields name member
  exact ⟨binder, found, renames.earlier grows⟩

theorem Yields.trans (first : supply.Yields more binders) (yields : supply.Yields binders names) :
    supply.Yields more names := by
  intro name member
  obtain ⟨binder, found, renames⟩ := yields name member
  obtain ⟨original, among, before⟩ := first binder found
  exact ⟨original, among, before.trans renames⟩

end Yields

end NameSupply

theorem NameSupply.grows_prepared (supply : NameSupply) (target : String)
    (term replacement : Term) :
    supply.Grows (((supply.insert target).reserveTerm term).reserveTerm replacement) := by
  intro name used
  simp [mem_reserveTerm, mem_insert, used]

namespace Term

theorem grows_substituteAvoiding (term : Term) (target : String) (replacement : Term)
    (supply : NameSupply) :
    supply.Grows (term.substituteAvoiding target replacement supply).2 := by
  intro name used
  apply grows_replace
  exact supply.grows_prepared target term replacement name used

/-- Binders of both terms go into the result, and only those of the first one are renamed. -/
theorem binderNames_replace (term : Term) (target : String) (replacement : Term)
    (supply : NameSupply) :
    supply.Yields (term.binderNames ++ replacement.binderNames)
      (term.replace target replacement supply).1.binderNames := by
  fun_induction replace term target replacement supply with
  | case1 supply place => exact .of_subset (List.nil_subset _)
  | case2 supply other place =>
      split
      · exact .of_subset (List.subset_append_right _ _)
      · exact .of_subset (List.nil_subset _)
  | case3 supply function argument place newFunction between functionEq newArgument after
      argumentEq functionIH argumentIH =>
      have grows := function.grows_replace target replacement supply
      rw [functionEq] at functionIH grows
      rw [argumentEq] at argumentIH
      refine .append (functionIH.mono ?_) ((argumentIH.earlier grows).mono ?_)
      all_goals grind [binderNames]
  | case4 supply kind bound domain body place newDomain after domainEq stops domainIH =>
      rw [domainEq] at domainIH
      have unchanged : supply.Yields [bound] [bound] := .refl [bound]
      have sameBody : supply.Yields body.binderNames body.binderNames := .refl _
      refine (unchanged.mono ?_).append ((domainIH.mono ?_).append (sameBody.mono ?_))
      all_goals grind [binderNames]
  | case5 supply kind bound domain body place newDomain between domainEq goesOn captures renamed
      afterFresh freshEq newBody after bodyEq domainIH bodyIH =>
      have grows := domain.grows_replace target replacement supply
      have freshGrows := between.grows_fresh bound
      have invented := between.renames_fresh bound
      rw [domainEq] at domainIH grows
      rw [freshEq] at freshGrows invented
      rw [bodyEq, binderNames_rename] at bodyIH
      have renames : supply.Yields [bound] [renamed] := by
        intro name member
        rw [List.mem_singleton.mp member]
        exact ⟨bound, List.mem_singleton_self _, invented.earlier grows⟩
      refine (renames.mono ?_).append
        ((domainIH.mono ?_).append (((bodyIH.earlier freshGrows).earlier grows).mono ?_))
      all_goals grind [binderNames]
  | case6 supply kind bound domain body place newDomain between domainEq goesOn safe newBody after
      bodyEq domainIH bodyIH =>
      have grows := domain.grows_replace target replacement supply
      rw [domainEq] at domainIH grows
      rw [bodyEq] at bodyIH
      have unchanged : supply.Yields [bound] [bound] := .refl [bound]
      refine (unchanged.mono ?_).append
        ((domainIH.mono ?_).append ((bodyIH.earlier grows).mono ?_))
      all_goals grind [binderNames]

theorem binderNames_substituteAvoiding (term : Term) (target : String) (replacement : Term)
    (supply : NameSupply) :
    supply.Yields (term.binderNames ++ replacement.binderNames)
      (term.substituteAvoiding target replacement supply).1.binderNames :=
  (binderNames_replace term target replacement _).earlier
    (supply.grows_prepared target term replacement)

theorem binderNames_contractLeftmost {term next : Term} {supply after : NameSupply}
    (step : term.contractLeftmost supply = some (next, after)) :
    supply.Grows after ∧ supply.Yields term.binderNames next.binderNames := by
  induction term generalizing next supply after with
  | sort place => simp [contractLeftmost] at step
  | var name place => simp [contractLeftmost] at step
  | app function argument place functionIH argumentIH =>
      rcases function.lambda_or_not with ⟨name, domain, body, binderPlace, rfl⟩ | notLambda
      · rw [contractLeftmost, Option.some.injEq] at step
        have grows := body.grows_substituteAvoiding name argument supply
        have yields := body.binderNames_substituteAvoiding name argument supply
        rw [step] at grows yields
        refine ⟨grows, yields.mono ?_⟩
        grind [binderNames]
      · rw [contractLeftmost_app _ _ notLambda] at step
        cases inner : function.contractLeftmost supply with
        | some first =>
            rw [inner] at step
            cases step
            obtain ⟨grows, yields⟩ := functionIH inner
            exact ⟨grows, yields.parts (.refl _)⟩
        | none =>
            rw [inner, Option.map_eq_some_iff] at step
            obtain ⟨second, contracted, same⟩ := step
            cases same
            obtain ⟨grows, yields⟩ := argumentIH contracted
            exact ⟨grows, NameSupply.Yields.parts (.refl _) yields⟩
  | bind kind name domain body place domainIH bodyIH =>
      rw [contractLeftmost] at step
      cases inner : domain.contractLeftmost supply with
      | some first =>
          rw [inner] at step
          cases step
          obtain ⟨grows, yields⟩ := domainIH inner
          exact ⟨grows, NameSupply.Yields.parts (.refl [name]) (yields.parts (.refl _))⟩
      | none =>
          rw [inner, Option.map_eq_some_iff] at step
          obtain ⟨second, contracted, same⟩ := step
          cases same
          obtain ⟨grows, yields⟩ := bodyIH contracted
          exact ⟨grows, NameSupply.Yields.parts (.refl [name])
            (NameSupply.Yields.parts (.refl _) yields)⟩

/-- The binders of a reduced term have names of binders of the term, or names that are new to
the term and to the context. -/
theorem binderNames_reduce {context term result : Term} {limit : Int}
    (returned : reduce context term limit = .ok result) :
    (NameSupply.ofTerms [term, context]).Yields term.binderNames result.binderNames := by
  let start := NameSupply.ofTerms [term, context]
  have keeps : ∀ {reached : Term} {supply : NameSupply} {next : Term} {after : NameSupply},
      start.Grows supply ∧ start.Yields term.binderNames reached.binderNames →
        reached.contractLeftmost supply = some (next, after) →
          start.Grows after ∧ start.Yields term.binderNames next.binderNames := by
    rintro reached supply next after ⟨grows, yields⟩ step
    obtain ⟨grown, more⟩ := binderNames_contractLeftmost step
    exact ⟨fun name used => grown name (grows name used), yields.trans (more.earlier grows)⟩
  obtain ⟨_, _, yields⟩ := reduce_invariant
    (fun reached supply => start.Grows supply ∧
      start.Yields term.binderNames reached.binderNames)
    keeps ⟨fun _ used => used, .refl _⟩ returned
  exact yields

end Term

theorem NameSupply.mem_ofTerms (term context : Term) (name : String) :
    name ∈ NameSupply.ofTerms [term, context] ↔
      name ∈ term.allNames ∨ name ∈ context.allNames := by
  have unused : name ∉ NameSupply.empty := by simp [← mem_names, names, empty]
  show name ∈ (empty.reserveTerm term).reserveTerm context ↔ _
  rw [mem_reserveTerm, mem_reserveTerm, or_comm, or_iff_left unused]

/-- A name in a reduced term is a name of the term, or that of one of its binders with primes
behind it, and new to the term and to the context. So the context shares no more names with the
result than with the term, and the result can be written down if the term can. -/
theorem names_of_reduction_are_kept_or_new {context term result : Term} {limit : Int}
    (returned : reduce context term limit = .ok result) :
    (∀ name ∈ result.allNames, name ∈ term.allNames ∨
      (∃ binder ∈ term.binderNames, ∃ count, name = primed binder (count + 1)) ∧
        name ∉ term.allNames ∧ name ∉ context.allNames) ∧
    (∀ name ∈ result.allNames, name ∈ context.allNames → name ∈ term.allNames) ∧
    ((∀ name ∈ term.allNames, ReadsAsName name) →
      ∀ name ∈ result.allNames, ReadsAsName name) := by
  have keptOrNew : ∀ name ∈ result.allNames, name ∈ term.allNames ∨
      (∃ binder ∈ term.binderNames, ∃ count, name = primed binder (count + 1)) ∧
        name ∉ term.allNames ∧ name ∉ context.allNames := by
    intro name member
    rcases (result.mem_allNames_iff name).mp member with free | bound
    · left
      exact Term.mem_allNames_of_free name term (freeNames_reduce returned free)
    · obtain ⟨binder, found, renames⟩ := Term.binderNames_reduce returned name bound
      rcases renames with rfl | ⟨⟨count, same⟩, unused⟩
      · exact .inl ((term.mem_allNames_iff name).mpr (.inr found))
      · rw [NameSupply.mem_ofTerms, not_or] at unused
        exact .inr ⟨⟨binder, found, count, same⟩, unused⟩
  refine ⟨keptOrNew, ?_, ?_⟩
  · intro name member inContext
    exact (keptOrNew name member).resolve_right fun new => new.2.2 inContext
  · intro readable
    have areNames : term.NamesAre IsName := fun name member =>
      (readsAsName_iff name).mp (readable name member)
    intro name member
    exact (readsAsName_iff name).mpr
      (Term.namesAre_reduce (fun _ => isName_prime) areNames returned name member)

/-- The term has `y` free and the context binds a `y'`, so the inner binder becomes `y''`. -/
theorem renamed_binder_avoids_context :
    let function : Term :=
      .lam "x" (.sort none) (.lam "y" (.sort none) (.var "x" none) none) none
    let term : Term := .app function (.var "y" none) none
    let context : Term := .pi "y'" (.sort none) (.sort none) none
    let result : Term := .lam "y''" (.sort none) (.var "y" none) none
    reduce context term 1 = .ok result ∧
      "y''" ∉ term.allNames ∧ "y''" ∉ context.allNames ∧
        (∃ binder ∈ term.binderNames, ∃ count, "y''" = primed binder (count + 1)) ∧
          ReadsAsName "y''" := by
  intro function term context result
  have returned : reduce context term 1 = .ok result := by
    rw [reduce_eq]
    cbv
  have isX : IsName "x" := ⟨⟨'x', [], rfl, by decide, by decide⟩, by decide⟩
  have isY : IsName "y" := ⟨⟨'y', [], rfl, by decide, by decide⟩, by decide⟩
  have readable : ∀ name ∈ term.allNames, ReadsAsName name := by
    intro name member
    rw [readsAsName_iff]
    have letter : name = "x" ∨ name = "y" := by
      revert name
      decide
    rcases letter with rfl | rfl
    · exact isX
    · exact isY
  obtain ⟨keptOrNew, _, written⟩ := names_of_reduction_are_kept_or_new returned
  have new := (keptOrNew "y''" (by decide)).resolve_left (by decide)
  exact ⟨returned, new.2.1, new.2.2, new.1, written readable "y''" (by decide)⟩

end TypeInType
