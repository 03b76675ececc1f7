import TypeInType.Proofs.Derivations
import TypeInType.Proofs.FreeNames

/-!
Scope and the judgements. In a context whose types mention only what is bound before them,
an expression that mentions only bound names gets a type of that kind, if substitution
renames binders. Conversely what is accepted mentions only bound names, as far as it is
looked at: the annotation of a lambda abstraction is not, unless its variable is used.
-/

namespace TypeInType

namespace Term

def WellScopedContext : Term → Prop
  | .pi _ type rest _ => type.freeNames ⊆ rest.boundNames ∧ rest.WellScopedContext
  | _ => True

/-- The names that occur free, but not those in the annotations of lambda abstractions. -/
def freeBesideAnnotations : Term → List String
  | .sort _ => []
  | .var name _ => [name]
  | .app function argument _ => function.freeBesideAnnotations ++ argument.freeBesideAnnotations
  | .lam name _ body _ => body.freeBesideAnnotations.filter (· ≠ name)
  | .pi name domain body _ =>
      domain.freeBesideAnnotations ++ body.freeBesideAnnotations.filter (· ≠ name)

theorem filter_ne_subset_iff (names bound : List String) (name : String) :
    names.filter (· ≠ name) ⊆ bound ↔ names ⊆ name :: bound := by
  simp only [List.subset_def, List.mem_filter, List.mem_cons, decide_eq_true_eq]
  constructor
  · intro within other member
    by_cases same : other = name
    · exact .inl same
    · exact .inr (within ⟨member, same⟩)
  · rintro within other ⟨member, differ⟩
    exact (within member).resolve_left differ

theorem freeNames_app_subset_iff (function argument : Term) (place : Option Location)
    (bound : List String) :
    (Term.app function argument place).freeNames ⊆ bound ↔
      function.freeNames ⊆ bound ∧ argument.freeNames ⊆ bound := by
  rw [freeNames, List.append_subset]

theorem freeNames_bind_subset_iff (kind : BinderKind) (name : String) (domain body : Term)
    (place : Option Location) (bound : List String) :
    (Term.bind kind name domain body place).freeNames ⊆ bound ↔
      domain.freeNames ⊆ bound ∧ body.freeNames ⊆ name :: bound := by
  rw [freeNames, List.append_subset, filter_ne_subset_iff]

theorem freeNames_lookup? {context type : Term} {name : String}
    (wellScoped : context.WellScopedContext) (found : context.lookup? name = some type) :
    type.freeNames ⊆ context.boundNames := by
  fun_induction lookup? context name with
  | case1 name domain rest place =>
      obtain rfl := Option.some.inj found
      exact List.subset_cons_of_subset _ wellScoped.1
  | case2 name bound domain rest place differ ih =>
      exact List.subset_cons_of_subset _ (ih wellScoped.2 found)
  | case3 => cases found

end Term

open Term

theorem freeNames_instantiate {settings : Settings} (avoiding : settings.captureAvoiding = true)
    {body argument : Term} {name : String} {bound : List String}
    (inBody : body.freeNames ⊆ name :: bound) (inArgument : argument.freeNames ⊆ bound) :
    (settings.instantiate body name argument).freeNames ⊆ bound := by
  intro free member
  rw [Settings.instantiate, if_pos avoiding, ← mem_freeNames_nameless, nameless_substituteAvoiding,
    Nameless.mem_freeNames_replaceFree, mem_freeNames_nameless, mem_freeNames_nameless] at member
  rcases member with ⟨kept, differ⟩ | ⟨_, brought⟩
  · exact (List.mem_cons.mp (inBody kept)).resolve_left differ
  · exact inArgument (by rwa [mem_freeNames_nameless] at brought)

section Types

variable {settings : Settings} {context : Term}

theorem freeNames_normalType {expression type : Term} {bound : List String}
    (inScope : ∀ synthesized, (synthesize settings context expression).outcome = .ok synthesized →
      synthesized.freeNames ⊆ bound)
    (typed : (normalType settings context expression).outcome = .ok type) :
    type.freeNames ⊆ bound := by
  obtain ⟨synthesized, found, returned⟩ := (normalType_ok_iff _ _).mp typed
  exact List.Subset.trans (freeNames_reduce returned) (inScope synthesized found)

theorem freeNames_synthesize (avoiding : settings.captureAvoiding = true)
    (wellScoped : context.WellScopedContext) {expression type : Term}
    (inScope : expression.freeNames ⊆ context.boundNames)
    (typed : (synthesize settings context expression).outcome = .ok type) :
    type.freeNames ⊆ context.boundNames := by
  induction expression generalizing context type with
  | sort place =>
      cases (synthesize_ok_iff _ _).mp typed
      exact List.nil_subset _
  | var name place =>
      cases (synthesize_ok_iff _ _).mp typed with
      | var place found => exact freeNames_lookup? wellScoped found
  | app function argument place functionIH argumentIH =>
      rw [freeNames_app_subset_iff] at inScope
      cases (synthesize_ok_iff _ _).mp typed with
      | app place functionTyped argumentTyped sameType =>
          have functionType := freeNames_normalType
            (fun _ => functionIH wellScoped inScope.1) functionTyped
          rw [freeNames_bind_subset_iff] at functionType
          exact freeNames_instantiate avoiding functionType.2 inScope.2
  | bind kind name domain body place domainIH bodyIH =>
      rw [freeNames_bind_subset_iff] at inScope
      cases (synthesize_ok_iff _ _).mp typed with
      | lam place bodyTyped =>
          -- The context grows by a type that is in scope, so it stays well scoped.
          have inside : (context.withBinding name domain).WellScopedContext :=
            ⟨inScope.1, wellScoped⟩
          have bodyType := freeNames_normalType (fun _ => bodyIH inside inScope.2) bodyTyped
          exact (freeNames_bind_subset_iff ..).mpr ⟨inScope.1, bodyType⟩
      | pi place accepted => exact List.nil_subset _

end Types

/-- With substitution that renames binders no type escapes its scope: where the context is
scoped and binds all that an expression mentions, it binds all that the type of the
expression mentions. So a closed expression has a closed type. -/
theorem types_stay_in_scope {settings : Settings} (avoiding : settings.captureAvoiding = true) :
    (∀ context expression : Term, context.WellScopedContext →
      expression.freeNames ⊆ context.boundNames → ∀ type,
        (synthesize settings context expression).outcome = .ok type ∨
          (normalType settings context expression).outcome = .ok type →
            type.freeNames ⊆ context.boundNames) ∧
    ∀ expression type : Term, expression.freeNames = [] →
      (typeOf settings expression).outcome = .ok type → type.freeNames = [] := by
  have inScope : ∀ context expression : Term, context.WellScopedContext →
      expression.freeNames ⊆ context.boundNames → ∀ type,
        (normalType settings context expression).outcome = .ok type →
          type.freeNames ⊆ context.boundNames := by
    intro context expression wellScoped mentioned type typed
    exact freeNames_normalType (fun _ => freeNames_synthesize avoiding wellScoped mentioned) typed
  constructor
  · rintro context expression wellScoped mentioned type (typed | typed)
    · exact freeNames_synthesize avoiding wellScoped mentioned typed
    · exact inScope context expression wellScoped mentioned type typed
  · intro expression type closed typed
    have mentioned : expression.freeNames ⊆ (Term.sort none).boundNames :=
      closed ▸ List.nil_subset _
    exact List.eq_nil_of_subset_nil
      (inScope (.sort none) expression trivial mentioned type (typeOf_ok_iff.mp typed))

/-- A name that stands for an argument would be captured by the binder `y` of the codomain. -/
theorem renamed_codomain_stays_in_scope :
    let settings : Settings := { captureAvoiding := true }
    let functionType : Term := .pi "x" (.sort none)
      (.pi "y" (.sort none) (.var "x" none) none) none
    let context : Term := .pi "f" functionType (.pi "y" (.sort none) (.sort none) none) none
    let expression : Term := .app (.var "f" none) (.var "y" none) none
    let type : Term := .pi "y'" (.sort none) (.var "y" none) none
    context.WellScopedContext ∧ expression.freeNames ⊆ context.boundNames ∧
      (synthesize settings context expression).outcome = .ok type ∧
        type.freeNames ⊆ context.boundNames := by
  intro settings functionType context expression type
  have wellScoped : context.WellScopedContext :=
    ⟨List.nil_subset _, List.nil_subset _, trivial⟩
  have mentioned : expression.freeNames ⊆ context.boundNames := by decide
  have typed : (synthesize settings context expression).outcome = .ok type := by cbv
  exact ⟨wellScoped, mentioned, typed,
    (types_stay_in_scope rfl).1 context expression wellScoped mentioned type (.inl typed)⟩

/-! What is accepted mentions only bound names. -/

def Accepts (settings : Settings) (context expression : Term) : Prop :=
  (∃ type, (synthesize settings context expression).outcome = .ok type) ∨
    (checkContext settings context expression).outcome = .ok true

section Strict

variable {settings : Settings} {context : Term}

theorem accepts_of_normalType {expression type : Term}
    (typed : (normalType settings context expression).outcome = .ok type) :
    Accepts settings context expression := by
  obtain ⟨synthesized, found, _⟩ := (normalType_ok_iff _ _).mp typed
  exact .inl ⟨synthesized, found⟩

theorem accepts_of_isTypeUnder {type : Term} (isType : IsTypeUnder settings context type) :
    Accepts settings context type := by
  rw [IsTypeUnder] at isType
  split at isType
  · exact .inr isType
  · obtain ⟨place, typed⟩ := isType
    exact accepts_of_normalType typed

theorem last_of_accepted (strict : settings.contextFallthrough = false) {name : String}
    {domain body : Term}
    (accepted : (checkContext settings (context.withBinding name domain) body).outcome = .ok true) :
    (∃ place, body = .sort place) ∧ IsTypeUnder settings context domain := by
  cases (checkContext_ok_iff _).mp accepted with
  | last place other isType => exact ⟨⟨other, rfl⟩, isType⟩
  | moved place ruled _ =>
      rcases ruled with always | notPi
      · rw [strict] at always
        cases always
      · exact absurd rfl (notPi _ _ _ _)

theorem moved_of_accepts {name : String} {domain body : Term} {place : Option Location}
    (accepts : Accepts settings context (.pi name domain body place)) :
    (checkContext settings (context.withBinding name domain) body).outcome = .ok true := by
  rcases accepts with ⟨type, typed⟩ | accepted
  · cases (synthesize_ok_iff _ _).mp typed with
    | pi place accepted => exact accepted
  · cases (checkContext_ok_iff _).mp accepted with
    | moved place ruled accepted => exact accepted

theorem freeBesideAnnotations_subset (strict : settings.contextFallthrough = false)
    {expression : Term} (accepts : Accepts settings context expression) :
    expression.freeBesideAnnotations ⊆ context.boundNames := by
  induction expression generalizing context with
  | sort place => exact List.nil_subset _
  | var name place =>
      rcases accepts with ⟨type, typed⟩ | accepted
      · cases (synthesize_ok_iff _ _).mp typed with
        | var place found =>
            have bound : name ∈ context.boundNames :=
              (isSome_lookup?_iff context name).mp (Option.isSome_of_eq_some found)
            exact List.cons_subset.mpr ⟨bound, List.nil_subset _⟩
      · cases (checkContext_ok_iff _).mp accepted
  | app function argument place functionIH argumentIH =>
      rcases accepts with ⟨type, typed⟩ | accepted
      · cases (synthesize_ok_iff _ _).mp typed with
        | app place functionTyped argumentTyped _ =>
            exact List.append_subset.mpr
              ⟨functionIH (accepts_of_normalType functionTyped),
                argumentIH (accepts_of_normalType argumentTyped)⟩
      · cases (checkContext_ok_iff _).mp accepted
  | bind kind name domain body place domainIH bodyIH =>
      cases kind with
      | lambda =>
          rcases accepts with ⟨type, typed⟩ | accepted
          · cases (synthesize_ok_iff _ _).mp typed with
            | lam place bodyTyped =>
                exact (filter_ne_subset_iff _ _ _).mpr (bodyIH (accepts_of_normalType bodyTyped))
          · cases (checkContext_ok_iff _).mp accepted
      | pi =>
          -- The domain is looked at in place of the body, which can only be `Type`.
          obtain ⟨⟨other, rfl⟩, isType⟩ := last_of_accepted strict (moved_of_accepts accepts)
          exact List.append_subset.mpr
            ⟨domainIH (accepts_of_isTypeUnder isType), List.nil_subset _⟩

end Strict

/-- Without the fallthrough of the context rules, what gets a type or is accepted as a
context mentions only names that the context binds, in all places but the annotations of
lambda abstractions. So nothing is free there in an expression that has a type by itself. -/
theorem accepted_names_are_bound {settings : Settings}
    (strict : settings.contextFallthrough = false) :
    (∀ context expression : Term,
      (∃ type, (synthesize settings context expression).outcome = .ok type) ∨
        (checkContext settings context expression).outcome = .ok true →
          expression.freeBesideAnnotations ⊆ context.boundNames) ∧
    ∀ expression type : Term, (typeOf settings expression).outcome = .ok type →
      expression.freeBesideAnnotations = [] := by
  refine ⟨fun context expression => freeBesideAnnotations_subset strict, ?_⟩
  intro expression type typed
  have accepts := accepts_of_normalType (typeOf_ok_iff.mp typed)
  exact List.eq_nil_of_subset_nil (freeBesideAnnotations_subset strict accepts)

/-- The annotation of `x` is never looked at, and the one of `y` is. -/
theorem annotation_may_be_unbound :
    let settings : Settings := {}
    let expression : Term := .lam "A" (.sort none) (.lam "x" (.var "undefined" none)
      (.pi "y" (.var "A" none) (.sort none) none) none) none
    (∃ type, (typeOf settings expression).outcome = .ok type) ∧
      expression.freeBesideAnnotations = [] ∧ expression.freeNames = ["undefined"] := by
  intro settings expression
  have isType : IsTypeUnder settings
      (((Term.sort none).withBinding "A" (.sort none)).withBinding "x" (.var "undefined" none))
      (.var "A" none) :=
    ⟨none, normalType_of_normal ((synthesize_ok_iff _ _).mpr (.var none rfl)) rfl⟩
  have typed : (typeOf settings expression).outcome = .ok (.pi "A" (.sort none)
      (.pi "x" (.var "undefined" none) (.sort none) none) none) := by
    refine typeOf_ok_iff.mpr (normalType_of_normal ?_ rfl)
    apply synthesize_lam_of_normal none rfl
    apply synthesize_lam_of_normal none rfl
    exact (synthesize_ok_iff _ _).mpr
      (.pi none ((checkContext_ok_iff _).mpr (.last none none isType)))
  have strict : settings.contextFallthrough = false := rfl
  exact ⟨⟨_, typed⟩, (accepted_names_are_bound strict).2 expression _ typed, by decide⟩

end TypeInType
