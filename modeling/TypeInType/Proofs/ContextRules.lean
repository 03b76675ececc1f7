import TypeInType.Proofs.BoundNames
import TypeInType.Proofs.Typing

/-!
Which bound types of a telescope the context rules look at. All bindings are moved
onto the context first, and then one type is looked at, the one bound last. From
there the rules go back to the binding before only over a bound type that is a
telescope itself, and end at the first that is not.
-/

namespace TypeInType

/-- A telescope that stands under a context binds a type: under the prefix, which has
the bindings before, and with the rest of the telescope behind it. -/
inductive Binds : Term → Term → Term → Term → Term → Prop
  | here (context : Term) (name : String) (domain body : Term) (place : Option Location) :
      Binds context (.pi name domain body place) context domain body
  | later {context : Term} {name : String} {domain body before type rest : Term}
      (place : Option Location) :
      Binds (context.withBinding name domain) body before type rest →
        Binds context (.pi name domain body place) before type rest

theorem Binds.not_sort {context telescope before type rest : Term}
    (binds : Binds context telescope before type rest) (notSort : context.isSort = false) :
    before.isSort = false := by
  induction binds with
  | here => exact notSort
  | later _ _ ih => exact ih rfl

def IsTypeUnder (settings : Settings) (context type : Term) : Prop :=
  if type.isTelescope then (checkContext settings context type).outcome = .ok true
  else ∃ place, (normalType settings context type).outcome = .ok (.sort place)

namespace Term

def madeOfSorts : Term → Bool
  | .sort _ => true
  | .pi _ domain body _ => domain.madeOfSorts && body.madeOfSorts
  | _ => false

theorem isTelescope_of_madeOfSorts {term : Term} (plain : term.madeOfSorts = true) :
    term.isTelescope = true := by
  induction term with
  | sort place => rfl
  | var name place => cases plain
  | app function argument place => cases plain
  | bind kind name domain body place _ bodyIH =>
      cases kind with
      | lambda => cases plain
      | pi =>
          rw [madeOfSorts, Bool.and_eq_true] at plain
          rw [isTelescope]
          exact bodyIH plain.2

theorem isSort_iff (term : Term) : term.isSort = true ↔ ∃ place, term = .sort place := by
  cases term <;> simp [isSort]

end Term

section Rules

variable {settings : Settings}

/-- Only the type bound last is looked at when no binding is left to move. -/
theorem checkContext_last_iff (bound : String) (type rest : Term)
    (place other : Option Location) :
    (checkContext settings (.pi bound type rest place) (.sort other)).outcome = .ok true ↔
      IsTypeUnder settings rest type := by
  cases shaped : type.isTelescope with
  | true => rw [IsTypeUnder, if_pos shaped, checkContext_last_telescope settings shaped]
  | false =>
      have notShaped : ¬type.isTelescope = true := Bool.eq_false_iff.mp shaped
      rw [IsTypeUnder, if_neg notShaped, checkContext_last_type settings shaped, bind_eq_ok_iff]
      constructor
      · rintro ⟨sort, typed, accepted⟩
        obtain ⟨sortPlace, rfl⟩ := (Term.isSort_iff sort).mp (Except.ok.inj accepted)
        exact ⟨sortPlace, typed⟩
      · rintro ⟨sortPlace, typed⟩
        exact ⟨.sort sortPlace, typed, rfl⟩

theorem checkContext_sort_place (context : Term) (place other : Option Location) :
    (checkContext settings context (.sort place)).outcome =
      (checkContext settings context (.sort other)).outcome := by
  rw [checkContext.eq_def settings context, checkContext.eq_def settings context]
  cases context with
  | bind kind bound type rest place => cases kind <;> rfl
  | _ => rfl

def LastAccepted (settings : Settings) (context telescope : Term) : Prop :=
  (∃ place, telescope = .sort place ∧
    (checkContext settings context (.sort place)).outcome = .ok true) ∨
    ∃ before type place, Binds context telescope before type (.sort place) ∧
      IsTypeUnder settings before type

theorem lastAccepted_malformed (always : settings.contextFallthrough = true)
    {context telescope : Term} (notSort : telescope.isSort = false)
    (notPi : ∀ name domain body place, telescope ≠ .pi name domain body place) :
    (checkContext settings context telescope).outcome = .ok true ↔
      LastAccepted settings context telescope := by
  rw [checkContext_malformed settings (.inl always) notSort notPi]
  constructor
  · intro accepted
    cases accepted
  · rintro (⟨place, rfl, _⟩ | ⟨before, type, place, binds, _⟩)
    · cases notSort
    · cases binds with
      | here => exact absurd rfl (notPi _ _ _ _)
      | later => exact absurd rfl (notPi _ _ _ _)

theorem checkContext_fallthrough_iff (always : settings.contextFallthrough = true)
    (context telescope : Term) :
    (checkContext settings context telescope).outcome = .ok true ↔
      LastAccepted settings context telescope := by
  induction telescope generalizing context with
  | sort place =>
      constructor
      · intro accepted
        exact .inl ⟨place, rfl, accepted⟩
      · rintro (⟨_, same, accepted⟩ | ⟨_, _, _, binds, _⟩)
        · rw [same]
          exact accepted
        · cases binds
  | var name place => exact lastAccepted_malformed always rfl (by simp)
  | app function argument place => exact lastAccepted_malformed always rfl (by simp)
  | bind kind name domain body place _ bodyIH =>
      cases kind with
      | lambda => exact lastAccepted_malformed always rfl (by simp)
      | pi =>
          rw [checkContext_moves settings (.inl always)]
          refine (bodyIH (context.withBinding name domain)).trans ?_
          constructor
          · rintro (⟨sortPlace, rfl, accepted⟩ | ⟨before, type, sortPlace, binds, isType⟩)
            · have isType := (checkContext_last_iff name domain context none sortPlace).mp accepted
              exact .inr ⟨context, domain, sortPlace, .here .., isType⟩
            · exact .inr ⟨before, type, sortPlace, .later place binds, isType⟩
          · rintro (⟨_, impossible, _⟩ | ⟨before, type, sortPlace, binds, isType⟩)
            · cases impossible
            · cases binds with
              | here =>
                  exact .inl ⟨sortPlace, rfl, (checkContext_last_iff ..).mpr isType⟩
              | later _ binds => exact .inr ⟨before, type, sortPlace, binds, isType⟩

theorem checkContext_strict_iff (strict : settings.contextFallthrough = false)
    (empty : Option Location) (telescope : Term) :
    (checkContext settings (.sort empty) telescope).outcome = .ok true ↔
      (∃ place, telescope = .sort place) ∨
        ∃ name type rest place, telescope = .pi name type (.sort rest) place ∧
          IsTypeUnder settings (.sort empty) type := by
  cases telescope with
  | sort place =>
      rw [checkContext_sort]
      exact iff_of_true rfl (.inl ⟨place, rfl⟩)
  | var name place =>
      rw [checkContext_malformed settings (.inr rfl) rfl (by simp)]
      simp
  | app function argument place =>
      rw [checkContext_malformed settings (.inr rfl) rfl (by simp)]
      simp
  | bind kind name domain body place =>
      cases kind with
      | lambda =>
          rw [checkContext_malformed settings (.inr rfl) rfl (by simp)]
          simp
      | pi =>
          rw [checkContext_moves settings (.inr rfl)]
          cases isSort : body.isSort with
          | true =>
              obtain ⟨rest, rfl⟩ := (Term.isSort_iff body).mp isSort
              rw [Term.withBinding, checkContext_last_iff]
              constructor
              · intro isType
                exact .inr ⟨name, domain, rest, place, rfl, isType⟩
              · rintro (⟨_, impossible⟩ | ⟨_, _, _, _, same, isType⟩)
                · cases impossible
                · cases same
                  exact isType
          | false =>
              rw [Term.withBinding, checkContext_ambiguous settings strict _ _ _ isSort]
              constructor
              · intro accepted
                cases accepted
              · rintro (⟨_, impossible⟩ | ⟨_, _, _, _, same, _⟩)
                · cases impossible
                · cases same
                  cases isSort

theorem checkContext_madeOfSorts (always : settings.contextFallthrough = true) {type : Term}
    (plain : type.madeOfSorts = true) (context : Term) (place : Option Location) :
    (checkContext settings context type).outcome =
      (checkContext settings context (.sort place)).outcome := by
  induction type generalizing context place with
  | sort other => exact checkContext_sort_place context other place
  | var name place => cases plain
  | app function argument place => cases plain
  | bind kind name domain body bindPlace domainIH bodyIH =>
      cases kind with
      | lambda => cases plain
      | pi =>
          rw [Term.madeOfSorts, Bool.and_eq_true] at plain
          have shaped := Term.isTelescope_of_madeOfSorts plain.1
          calc (checkContext settings context (.pi name domain body bindPlace)).outcome
            _ = (checkContext settings (context.withBinding name domain) body).outcome :=
              checkContext_moves settings (.inl always) ..
            _ = (checkContext settings (context.withBinding name domain) (.sort none)).outcome :=
              bodyIH plain.2 _ none
            _ = (checkContext settings context domain).outcome :=
              checkContext_last_telescope settings shaped ..
            _ = (checkContext settings context (.sort place)).outcome :=
              domainIH plain.1 context place

theorem isTypeUnder_of_accepted (always : settings.contextFallthrough = true)
    {context telescope before type rest : Term}
    (binds : Binds context telescope before type rest) (plain : rest.madeOfSorts = true)
    (accepted : (checkContext settings context telescope).outcome = .ok true) :
    IsTypeUnder settings before type := by
  induction binds with
  | here context name domain body place =>
      rw [checkContext_moves settings (.inl always),
        checkContext_madeOfSorts always plain _ none] at accepted
      exact (checkContext_last_iff name domain context none none).mp accepted
  | later place _ ih =>
      rw [checkContext_moves settings (.inl always)] at accepted
      exact ih plain accepted

end Rules

/-- A telescope with bindings is accepted, beyond a single binding only with the
fallthrough, just when the type it binds last is a type under the bindings before. Of
the other bound types an accepted telescope tells only that those are types behind
which nothing is bound but what is made of `Type` alone. -/
theorem accepted_context_binds_types (settings : Settings) (empty : Option Location)
    (telescope : Term) :
    ((checkContext settings (.sort empty) telescope).outcome = .ok true ↔
      telescope.isSort = true ∨
        ∃ before type place, Binds (.sort empty) telescope before type (.sort place) ∧
          (settings.contextFallthrough = true ∨ before.isSort = true) ∧
            IsTypeUnder settings before type) ∧
      ((checkContext settings (.sort empty) telescope).outcome = .ok true →
        ∀ before type rest, Binds (.sort empty) telescope before type rest →
          settings.contextFallthrough = false ∨ rest.madeOfSorts = true →
            IsTypeUnder settings before type) := by
  cases always : settings.contextFallthrough with
  | true =>
      have exactly := checkContext_fallthrough_iff always (.sort empty) telescope
      constructor
      · rw [exactly]
        constructor
        · rintro (⟨place, rfl, _⟩ | ⟨before, type, place, binds, isType⟩)
          · exact .inl rfl
          · exact .inr ⟨before, type, place, binds, .inl rfl, isType⟩
        · rintro (isSort | ⟨before, type, place, binds, _, isType⟩)
          · obtain ⟨place, rfl⟩ := (Term.isSort_iff telescope).mp isSort
            exact .inl ⟨place, rfl, checkContext_sort settings empty place⟩
          · exact .inr ⟨before, type, place, binds, isType⟩
      · intro accepted before type rest binds plain
        exact isTypeUnder_of_accepted always binds (plain.resolve_left nofun) accepted
  | false =>
      have exactly := checkContext_strict_iff always empty telescope
      constructor
      · rw [exactly]
        constructor
        · rintro (⟨place, rfl⟩ | ⟨name, type, last, place, rfl, isType⟩)
          · exact .inl rfl
          · exact .inr ⟨.sort empty, type, last, .here .., .inr rfl, isType⟩
        · rintro (isSort | ⟨before, type, last, binds, single, isType⟩)
          · exact .inl ((Term.isSort_iff telescope).mp isSort)
          · have first : before.isSort = true := single.resolve_left nofun
            cases binds with
            | here context name domain body place =>
                exact .inr ⟨name, type, last, place, rfl, isType⟩
            | later place binds =>
                rw [binds.not_sort rfl] at first
                cases first
      · intro accepted before type rest binds _
        rcases exactly.mp accepted with ⟨place, rfl⟩ | ⟨name, domain, last, place, rfl, isType⟩
        · cases binds
        · cases binds with
          | here => exact isType
          | later _ binds => cases binds

/-- Behind `x : A` nothing is bound but `B : Type`. -/
theorem accepted_context_binds_variable :
    let settings : Settings := { contextFallthrough := true }
    let telescope : Term := .pi "A" (.sort none) (.pi "x" (.var "A" none)
      (.pi "B" (.sort none) (.sort none) none) none) none
    (checkContext settings (.sort none) telescope).outcome = .ok true ∧
      IsTypeUnder settings ((Term.sort none).withBinding "A" (.sort none)) (.var "A" none) := by
  intro settings telescope
  have accepted : (checkContext settings (.sort none) telescope).outcome = .ok true := by
    cbv
  have plain : (Term.pi "B" (.sort none) (.sort none) none).madeOfSorts = true := by
    decide
  have binds : Binds (.sort none) telescope ((Term.sort none).withBinding "A" (.sort none))
      (.var "A" none) (.pi "B" (.sort none) (.sort none) none) :=
    .later none (.here _ _ _ _ none)
  exact ⟨accepted,
    (accepted_context_binds_types settings none telescope).2 accepted _ _ _ binds (.inr plain)⟩

/-- The type of `y` is looked at and has type `Type`, and that is the end of it. -/
theorem accepted_context_binds_undefined_type :
    let settings : Settings := { contextFallthrough := true }
    let telescope : Term := .pi "x" (.var "undefined" none)
      (.pi "A" (.sort none) (.pi "y" (.var "A" none) (.sort none) none) none) none
    (checkContext settings (.sort none) telescope).outcome = .ok true ∧
      (∃ rest, Binds (.sort none) telescope (.sort none) (.var "undefined" none) rest) ∧
        ¬IsTypeUnder settings (.sort none) (.var "undefined" none) := by
  intro settings telescope
  have lastIsType : IsTypeUnder settings
      (((Term.sort none).withBinding "x" (.var "undefined" none)).withBinding "A" (.sort none))
      (.var "A" none) :=
    ⟨none, normalType_of_normal (synthesize_var settings _ "A" none) rfl⟩
  have accepted := (checkContext_fallthrough_iff rfl (.sort none) telescope).mpr
    (.inr ⟨_, _, none, .later none (.later none (.here _ _ _ _ none)), lastIsType⟩)
  refine ⟨accepted, ⟨_, .here _ _ _ _ none⟩, ?_⟩
  rintro ⟨place, typed⟩
  rw [normalType_outcome, synthesize_var] at typed
  cases typed

end TypeInType
