import Mathlib
import TypeInType.Proofs.Derivations

/-!
Weakening. A context gets further bindings, older than all of its own: they stand in the
place of its `Type`. A lookup that succeeds does not reach that far, so it finds the same
type as before. The context rules do get there, when no binding is left to look at, and
then they ask whether the older bindings are a context. All that changes is the names that
reductions avoid, so types change in bound names only.
-/

namespace TypeInType

namespace Term

def withOlder : Term → Term → Term
  | .sort _, older => older
  | .pi bound type rest place, older => .pi bound type (rest.withOlder older) place
  | other, _ => other

theorem lookup?_withOlder {context type : Term} {name : String}
    (found : context.lookup? name = some type) (older : Term) :
    (context.withOlder older).lookup? name = some type := by
  fun_induction lookup? context name with
  | case1 name domain rest place => rwa [withOlder, lookup?_here]
  | case2 name bound domain rest place differ ih =>
      rw [withOlder, lookup?_elsewhere (Ne.symm differ)]
      exact ih found
  | case3 => cases found

end Term

open Term

def StaysUnder (settings : Settings) (older : Term) : Question → Prop
  | .typing context expression =>
      ∀ type, (synthesize settings context expression).outcome = .ok type →
        ∃ wider, (synthesize settings (context.withOlder older) expression).outcome = .ok wider ∧
          type.nameless = wider.nameless
  | .isContext context telescope =>
      (checkContext settings context telescope).outcome = .ok true →
        (checkContext settings (context.withOlder older) telescope).outcome = .ok true

section Steps

variable {settings : Settings} {older context : Term}

theorem normalType_stays {expression type : Term}
    (stays : StaysUnder settings older (.typing context expression))
    (typed : (normalType settings context expression).outcome = .ok type) :
    ∃ wider, (normalType settings (context.withOlder older) expression).outcome = .ok wider ∧
      type.nameless = wider.nameless := by
  obtain ⟨synthesized, found, returned⟩ := (normalType_ok_iff _ _).mp typed
  obtain ⟨other, otherFound, same⟩ := stays synthesized found
  obtain ⟨wider, otherReturned, alike⟩ :=
    reduce_agrees context (context.withOlder older) _ _ _ [] [] same type returned
  exact ⟨wider, (normalType_ok_iff _ _).mpr ⟨other, otherFound, otherReturned⟩, alike⟩

theorem synthesize_stays (avoiding : settings.captureAvoiding = true) {expression : Term}
    (below : ∀ next, Question.RestsOn settings (.typing context expression) next →
      StaysUnder settings older next) :
    StaysUnder settings older (.typing context expression) := by
  intro type typed
  rw [synthesize_ok_iff] at typed
  simp only [synthesize_ok_iff]
  cases typed with
  | sort place => exact ⟨_, .sort place, rfl⟩
  | var place found => exact ⟨type, .var place (lookup?_withOlder found older), rfl⟩
  | app place functionTyped argumentTyped sameType =>
      obtain ⟨functionType, functionFound, sameFunction⟩ :=
        normalType_stays (below _ (.function ..)) functionTyped
      obtain ⟨argumentType, argumentFound, sameArgument⟩ :=
        normalType_stays (below _ (.argument _ _ functionTyped)) argumentTyped
      cases sameShape_of_namelessUnder_eq sameFunction with
      | bind _ _ typePlace sameDomain sameCodomain =>
          have otherSameType := sameArgument.symm.trans (sameType.trans sameDomain)
          refine ⟨_, .app place functionFound argumentFound otherSameType, ?_⟩
          rw [Settings.instantiate, Settings.instantiate, if_pos avoiding, if_pos avoiding,
            nameless, nameless, namelessUnder_substituteAvoiding,
            namelessUnder_substituteAvoiding, sameCodomain]
  | @lam name domain body bodyType place bodyTyped =>
      obtain ⟨wider, found, same⟩ := normalType_stays (below _ (.body ..)) bodyTyped
      refine ⟨_, .lam place found, ?_⟩
      rw [nameless, nameless, namelessUnder, namelessUnder,
        (namelessUnder_eq_iff [name] _ _).mpr same]
  | pi place accepted => exact ⟨_, .pi place (below _ (.codomain ..) accepted), rfl⟩

theorem isTypeUnder_stays {bound : String} {type rest : Term} {place sortPlace : Option Location}
    (below : ∀ next,
      Question.RestsOn settings (.isContext (.pi bound type rest place) (.sort sortPlace)) next →
        StaysUnder settings older next)
    (isType : IsTypeUnder settings rest type) :
    IsTypeUnder settings (rest.withOlder older) type := by
  cases shaped : type.isTelescope with
  | true =>
      rw [IsTypeUnder, if_pos shaped] at isType ⊢
      exact below _ (.lastTelescope _ _ _ _ shaped) isType
  | false =>
      have notShaped : ¬type.isTelescope = true := Bool.eq_false_iff.mp shaped
      rw [IsTypeUnder, if_neg notShaped] at isType ⊢
      obtain ⟨typePlace, typed⟩ := isType
      obtain ⟨wider, found, same⟩ := normalType_stays (below _ (.lastType _ _ _ _ shaped)) typed
      cases sameShape_of_namelessUnder_eq same with
      | sort _ otherPlace => exact ⟨otherPlace, found⟩

theorem checkContext_stays (always : settings.contextFallthrough = true)
    {olderPlace : Option Location}
    (valid : (checkContext settings older (.sort olderPlace)).outcome = .ok true) {telescope : Term}
    (below : ∀ next, Question.RestsOn settings (.isContext context telescope) next →
      StaysUnder settings older next) :
    StaysUnder settings older (.isContext context telescope) := by
  intro accepted
  rw [checkContext_ok_iff] at accepted
  cases accepted with
  | empty place other => rwa [withOlder, checkContext_sort_place older other olderPlace]
  | last place other isType =>
      exact (checkContext_ok_iff _).mpr (.last place other (isTypeUnder_stays below isType))
  | moved place _ accepted =>
      have moves := below _ (.moved _ _ _ _ (.inl always)) accepted
      exact (checkContext_ok_iff _).mpr (.moved place (.inl always) moves)

end Steps

/-- Each answer rests on answers to smaller questions, of both judgements. -/
theorem answers_stay {settings : Settings} (avoiding : settings.captureAvoiding = true)
    (always : settings.contextFallthrough = true) {older : Term} {place : Option Location}
    (valid : (checkContext settings older (.sort place)).outcome = .ok true) (question : Question) :
    StaysUnder settings older question := by
  induction question using (Question.wellFounded_restsOn settings).induction with
  | _ question below =>
    cases question with
    | typing context expression => exact synthesize_stays avoiding below
    | isContext context telescope => exact checkContext_stays always valid below

/-- With substitution that renames binders and the fallthrough of the context rules, what is
answered under a context stays so when older bindings that are accepted as a context are put
below it: an expression that has a type has one that differs in bound names only, and a
telescope that is a context is one. -/
theorem typing_is_stable_under_weakening {settings : Settings}
    (avoiding : settings.captureAvoiding = true) (always : settings.contextFallthrough = true)
    {older : Term} {place : Option Location}
    (valid : (checkContext settings older (.sort place)).outcome = .ok true) (context : Term) :
    (∀ expression type, (synthesize settings context expression).outcome = .ok type →
      ∃ wider, (synthesize settings (context.withOlder older) expression).outcome = .ok wider ∧
        type.alphaEquivalent [] wider = true) ∧
    (∀ expression type, (normalType settings context expression).outcome = .ok type →
      ∃ wider, (normalType settings (context.withOlder older) expression).outcome = .ok wider ∧
        type.alphaEquivalent [] wider = true) ∧
    ∀ telescope, (checkContext settings context telescope).outcome = .ok true →
      (checkContext settings (context.withOlder older) telescope).outcome = .ok true := by
  have stays := answers_stay avoiding always valid
  simp only [alphaEquivalent_nil_iff]
  refine ⟨fun expression => stays (.typing context expression), fun expression type => ?_,
    fun telescope => stays (.isContext context telescope)⟩
  exact normalType_stays (stays (.typing context expression))

/-- The type of `z` reduces to `forall (y' : Type), y`, and where `y'` is bound already, to
`forall (y'' : Type), y`. -/
theorem weakening_invents_another_name :
    let settings : Settings := { captureAvoiding := true, contextFallthrough := true }
    let context : Term := .pi "y" (.sort none) (.sort none) none
    let older : Term := .pi "y'" (.sort none) (.sort none) none
    let domain : Term := .app
      (.lam "x" (.sort none) (.pi "y" (.sort none) (.var "x" none) none) none) (.var "y" none) none
    let type (bound : String) : Term :=
      .pi "z" domain (.pi bound (.sort none) (.var "y" none) none) none
    let expression : Term := .lam "z" domain (.var "z" none) none
    (checkContext settings older (.sort none)).outcome = .ok true ∧
      (synthesize settings context expression).outcome = .ok (type "y'") ∧
      (synthesize settings (context.withOlder older) expression).outcome = .ok (type "y''") ∧
      (type "y'").alphaEquivalent [] (type "y''") = true := by
  intro settings context older domain type expression
  have typed : ∀ {names : Term} {bound : String},
      settings.reduce (names.withBinding "z" domain) domain =
        .ok (.pi bound (.sort none) (.var "y" none) none) →
      (synthesize settings names expression).outcome = .ok (type bound) := by
    intro names bound reduced
    have looked : (synthesize settings (names.withBinding "z" domain) (.var "z" none)).outcome =
        .ok domain := (synthesize_ok_iff _ _).mpr (.var none (lookup?_here "z" domain names none))
    exact (synthesize_ok_iff _ _).mpr (.lam none ((normalType_ok_iff _ _).mpr ⟨_, looked, reduced⟩))
  have valid : (checkContext settings older (.sort none)).outcome = .ok true := by cbv
  have first : (synthesize settings context expression).outcome = .ok (type "y'") := by
    apply typed
    rw [Settings.reduce, reduce_eq]
    cbv
  have second : (synthesize settings (context.withOlder older) expression).outcome =
      .ok (type "y''") := by
    apply typed
    rw [Settings.reduce, reduce_eq]
    cbv
  obtain ⟨wider, found, alike⟩ :=
    (typing_is_stable_under_weakening rfl rfl valid context).1 expression _ first
  rw [second] at found
  obtain rfl := Except.ok.inj found
  exact ⟨valid, first, second, alike⟩

end TypeInType
