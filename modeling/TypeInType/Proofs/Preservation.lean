import TypeInType.Proofs.Congruence

/-!
Types of nameless terms, up to convertibility. Of the rules of the checker
`HasType` keeps what decides which type a term gets, and asks for no more: a
function type has type `Type` whatever its parts are, and the types that a context
or a lambda binds are not looked at. That is enough for types to be unique and
for contraction to keep them, and so convertible terms have convertible types.
-/

namespace TypeInType.Nameless

/-- The type of a variable, read in the whole context. A context lists the types
of its variables innermost first, each read in those behind it. -/
def typeAt : List Nameless → Nat → Option Nameless
  | [], _ => none
  | type :: _, 0 => some type.shift
  | _ :: rest, depth + 1 => (typeAt rest depth).map shift

inductive HasType : List Nameless → Nameless → Nameless → Prop
  | sort (context : List Nameless) : HasType context .sort .sort
  | bound {context : List Nameless} {depth : Nat} {type : Nameless} :
      typeAt context depth = some type → HasType context (.bound depth) type
  | app {context : List Nameless}
      {function argument functionType argumentType domain codomain : Nameless} :
      HasType context function functionType →
        Convertible functionType (.bind .pi domain codomain) →
          HasType context argument argumentType → Convertible argumentType domain →
            HasType context (.app function argument) (codomain.instantiate argument)
  | lam {context : List Nameless} {domain body bodyType : Nameless} :
      HasType (domain :: context) body bodyType →
        HasType context (.bind .lambda domain body) (.bind .pi domain bodyType)
  | pi (context : List Nameless) (domain body : Nameless) :
      HasType context (.bind .pi domain body) .sort

def HasTypeLike (context : List Nameless) (term type : Nameless) : Prop :=
  ∃ other, HasType context term other ∧ Convertible other type

theorem HasTypeLike.convert {context : List Nameless} {term type next : Nameless}
    (typed : HasTypeLike context term type) (convertible : Convertible type next) :
    HasTypeLike context term next := by
  obtain ⟨other, hasOther, like⟩ := typed
  exact ⟨other, hasOther, like.trans convertible⟩

theorem HasTypeLike.app {context : List Nameless}
    {function argument domain codomain : Nameless}
    (functionTyped : HasTypeLike context function (.bind .pi domain codomain))
    (argumentTyped : HasTypeLike context argument domain) :
    HasType context (.app function argument) (codomain.instantiate argument) := by
  obtain ⟨functionType, hasFunctionType, likePi⟩ := functionTyped
  obtain ⟨argumentType, hasArgumentType, likeDomain⟩ := argumentTyped
  exact .app hasFunctionType likePi hasArgumentType likeDomain

/-! Types are unique. -/

theorem HasType.unique {context : List Nameless} {term type other : Nameless}
    (hasType : HasType context term type) (hasOther : HasType context term other) :
    Convertible type other := by
  induction hasType generalizing other with
  | sort context =>
      cases hasOther
      exact .refl .sort
  | bound found =>
      cases hasOther with
      | bound otherFound =>
          rw [found] at otherFound
          exact .of_eq (Option.some.inj otherFound)
  | @app context function argument functionType argumentType domain codomain _ likePi _ _
      functionIH _ =>
      cases hasOther with
      | app hasOtherFunctionType otherLikePi _ _ =>
          have functionTypes := functionIH hasOtherFunctionType
          have products := likePi.symm.trans (functionTypes.trans otherLikePi)
          obtain ⟨_, _, codomains⟩ := products.bind_injective
          exact codomains.instantiate (.refl argument)
  | @lam context domain body bodyType _ bodyIH =>
      cases hasOther with
      | lam hasOtherBodyType => exact .bind .pi (.refl domain) (bodyIH hasOtherBodyType)
  | pi context domain body =>
      cases hasOther
      exact .refl .sort

/-! Weakening, as the case of a relabelling that keeps the types of variables. -/

def KeepsTypes (label : Nat → Nat) (context after : List Nameless) : Prop :=
  ∀ depth type, typeAt context depth = some type →
    typeAt after (label depth) = some (type.relabel label)

theorem KeepsTypes.under {label : Nat → Nat} {context after : List Nameless}
    (keeps : KeepsTypes label context after) (domain : Nameless) :
    KeepsTypes (liftLabel label) (domain :: context) (domain.relabel label :: after) := by
  intro depth type found
  cases depth with
  | zero =>
      obtain rfl := Option.some.inj found
      rw [relabel_shift]
      rfl
  | succ depth =>
      obtain ⟨inner, innerFound, rfl⟩ := Option.map_eq_some_iff.mp found
      rw [relabel_shift]
      show (typeAt after (label depth)).map shift = _
      rw [keeps depth inner innerFound]
      rfl

theorem HasType.relabel {context after : List Nameless} {term type : Nameless}
    {label : Nat → Nat} (hasType : HasType context term type)
    (keeps : KeepsTypes label context after) :
    HasType after (term.relabel label) (type.relabel label) := by
  induction hasType generalizing after label with
  | sort context => exact .sort after
  | bound found => exact .bound (keeps _ _ found)
  | app _ likePi _ likeDomain functionIH argumentIH =>
      rw [relabel_instantiate]
      exact .app (functionIH keeps) (likePi.relabel label) (argumentIH keeps)
        (likeDomain.relabel label)
  | lam _ bodyIH => exact .lam (bodyIH (keeps.under _))
  | pi context domain body => exact .pi after _ _

theorem HasType.shift {context : List Nameless} {term type : Nameless}
    (hasType : HasType context term type) (domain : Nameless) :
    HasType (domain :: context) term.shift type.shift := by
  apply hasType.relabel
  intro depth type found
  show (typeAt context depth).map Nameless.shift = _
  rw [found]
  rfl

/-! Substitution: every variable is filled by a term of its type. -/

def FillsTyped (indices : Nat → Nameless) (context after : List Nameless) : Prop :=
  ∀ depth type, typeAt context depth = some type →
    HasTypeLike after (indices depth) (type.fill indices .free)

theorem FillsTyped.under {indices : Nat → Nameless} {context after : List Nameless}
    (fills : FillsTyped indices context after) (domain : Nameless) :
    FillsTyped (lift indices) (domain :: context) (domain.fill indices .free :: after) := by
  intro depth type found
  have carried : ∀ term : Nameless,
      term.shift.fill (lift indices) .free = (term.fill indices .free).shift :=
    fun term => fill_shift indices .free term
  cases depth with
  | zero =>
      obtain rfl := Option.some.inj found
      rw [carried]
      exact ⟨_, .bound rfl, .refl _⟩
  | succ depth =>
      obtain ⟨inner, innerFound, rfl⟩ := Option.map_eq_some_iff.mp found
      obtain ⟨other, hasOther, like⟩ := fills depth inner innerFound
      rw [carried]
      exact ⟨other.shift, hasOther.shift _, like.relabel Nat.succ⟩

theorem HasType.fill {context after : List Nameless} {term type : Nameless}
    {indices : Nat → Nameless} (hasType : HasType context term type)
    (fills : FillsTyped indices context after) :
    HasTypeLike after (term.fill indices .free) (type.fill indices .free) := by
  have shifted : (fun name => (Nameless.free name).shift) = Nameless.free := rfl
  induction hasType generalizing after indices with
  | sort context => exact ⟨.sort, .sort after, .refl .sort⟩
  | bound found => exact fills _ _ found
  | @app context function argument functionType argumentType domain codomain _ likePi _ likeDomain
      functionIH argumentIH =>
      have functionTyped := (functionIH fills).convert (likePi.fill indices .free)
      have argumentTyped := (argumentIH fills).convert (likeDomain.fill indices .free)
      rw [fill_instantiate, shifted]
      simp only [Nameless.fill, shifted] at functionTyped
      exact ⟨_, functionTyped.app argumentTyped, .refl _⟩
  | @lam context domain body bodyType _ bodyIH =>
      obtain ⟨other, hasOther, like⟩ := bodyIH (fills.under domain)
      simp only [Nameless.fill, shifted]
      exact ⟨_, .lam hasOther, .bind .pi (.refl _) like⟩
  | pi context domain body => exact ⟨.sort, .pi after _ _, .refl .sort⟩

theorem HasType.instantiate {context : List Nameless}
    {domain body bodyType argument : Nameless}
    (bodyTyped : HasType (domain :: context) body bodyType)
    (argumentTyped : HasTypeLike context argument domain) :
    HasTypeLike context (body.instantiate argument) (bodyType.instantiate argument) := by
  apply bodyTyped.fill
  intro depth type found
  cases depth with
  | zero =>
      obtain rfl := Option.some.inj found
      exact argumentTyped.convert (.of_eq (instantiate_shift domain argument).symm)
  | succ depth =>
      obtain ⟨inner, innerFound, rfl⟩ := Option.map_eq_some_iff.mp found
      exact ⟨inner, .bound innerFound, .of_eq (instantiate_shift inner argument).symm⟩

theorem HasType.change_domain {context : List Nameless} {domain other body bodyType : Nameless}
    (bodyTyped : HasType (domain :: context) body bodyType)
    (domains : Convertible domain other) : HasTypeLike (other :: context) body bodyType := by
  have kept : FillsTyped .bound (domain :: context) (other :: context) := by
    intro depth type found
    rw [fill_bound_free]
    cases depth with
    | zero =>
        obtain rfl := Option.some.inj found
        exact ⟨other.shift, .bound rfl, domains.symm.relabel Nat.succ⟩
    | succ depth => exact ⟨type, .bound found, .refl type⟩
  have typed := bodyTyped.fill kept
  rw [fill_bound_free, fill_bound_free] at typed
  exact typed

/-! Contraction keeps types, here for any number of redexes at once. -/

theorem Develops.keeps_type {context : List Nameless} {term next type : Nameless}
    (step : Develops term next) (hasType : HasType context term type) :
    HasTypeLike context next type := by
  induction step generalizing context type with
  | sort => exact ⟨type, hasType, .refl type⟩
  | bound depth => exact ⟨type, hasType, .refl type⟩
  | free name => cases hasType
  | app _ inArgument functionIH argumentIH =>
      cases hasType with
      | @app _ _ _ _ _ _ codomain hasFunctionType likePi hasArgumentType likeDomain =>
          have functionTyped := (functionIH hasFunctionType).convert likePi
          have argumentTyped := (argumentIH hasArgumentType).convert likeDomain
          -- The argument stands in the type, too, and has been developed there.
          have results :=
            (Convertible.refl codomain).instantiate inArgument.convertible.symm
          exact ⟨_, functionTyped.app argumentTyped, results⟩
  | @bind kind domain domain' body body' inDomain _ _ bodyIH =>
      cases hasType with
      | lam hasBodyType =>
          obtain ⟨bodyType, hasBodyType', like⟩ := bodyIH hasBodyType
          obtain ⟨other, hasOther, otherLike⟩ :=
            hasBodyType'.change_domain inDomain.convertible
          exact ⟨_, .lam hasOther,
            .bind .pi inDomain.convertible.symm (otherLike.trans like)⟩
      | pi => exact ⟨.sort, .pi context _ _, .refl .sort⟩
  | @redex domain body body' argument argument' _ inArgument bodyIH argumentIH =>
      cases hasType with
      | app hasFunctionType likePi hasArgumentType likeDomain =>
          cases hasFunctionType with
          | @lam _ _ _ bodyType hasBodyType =>
              obtain ⟨_, domains, codomains⟩ := likePi.bind_injective
              obtain ⟨developedType, hasDevelopedType, like⟩ := bodyIH hasBodyType
              have argumentTyped :=
                (argumentIH hasArgumentType).convert (likeDomain.trans domains.symm)
              have typed := hasDevelopedType.instantiate argumentTyped
              have types := (like.trans codomains).instantiate inArgument.convertible.symm
              exact typed.convert types

theorem developments_keep_type {context : List Nameless} {term last type : Nameless}
    (steps : Relation.ReflTransGen Develops term last) (hasType : HasType context term type) :
    HasTypeLike context last type := by
  induction steps with
  | refl => exact ⟨type, hasType, .refl type⟩
  | tail _ step ih =>
      obtain ⟨other, hasOther, like⟩ := ih
      exact (step.keeps_type hasOther).convert like

/-- Convertible terms have convertible types: both keep theirs on the way to a
common reduct, which has only one. -/
theorem types_of_convertible {context : List Nameless} {left right leftType rightType : Nameless}
    (convertible : Convertible left right) (hasLeftType : HasType context left leftType)
    (hasRightType : HasType context right rightType) : Convertible leftType rightType := by
  obtain ⟨common, fromLeft, fromRight⟩ := common_reduct convertible
  obtain ⟨_, hasFirst, likeLeft⟩ := developments_keep_type fromLeft hasLeftType
  obtain ⟨_, hasSecond, likeRight⟩ := developments_keep_type fromRight hasRightType
  exact likeLeft.symm.trans ((hasFirst.unique hasSecond).trans likeRight)

end TypeInType.Nameless
