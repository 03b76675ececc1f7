import Mathlib.Logic.Function.Basic
import TypeInType.Proofs.Filling
import TypeInType.Substitution.Avoiding

/-!
Reading named terms without bound names. A reading is told what every name means;
a binder makes its own name mean index 0 in its body. Reading under a list of
binders is the case in which the names of the list mean their positions, and two
terms agree up to bound names exactly when their readings are the same.
-/

namespace TypeInType

namespace Term

def meaningUnder (bound : String) (meaning : String → Nameless) : String → Nameless :=
  Function.update (fun name => (meaning name).shift) bound (.bound 0)

def readWith (meaning : String → Nameless) : Term → Nameless
  | .sort _ => .sort
  | .var name _ => meaning name
  | .app function argument _ => .app (function.readWith meaning) (argument.readWith meaning)
  | .bind kind bound domain body _ =>
      .bind kind (domain.readWith meaning) (body.readWith (meaningUnder bound meaning))

def position (binders : List String) (name : String) : Nameless :=
  match depth? binders name with
  | some depth => .bound depth
  | none => .free name

theorem depth?_cons (bound : String) (binders : List String) (name : String) :
    depth? (bound :: binders) name =
      if bound = name then some 0 else (depth? binders name).map (· + 1) := by
  simp [depth?, List.findIdx?_cons]

theorem depth?_eq_none_iff (binders : List String) (name : String) :
    depth? binders name = none ↔ name ∉ binders := by
  simp only [depth?, List.findIdx?_eq_none_iff, decide_eq_false_iff_not]
  exact ⟨fun differ member => differ name member rfl,
    fun absent _ member same => absent (same ▸ member)⟩

theorem position_nil : position [] = .free := rfl

theorem position_cons (bound : String) (binders : List String) :
    position (bound :: binders) = meaningUnder bound (position binders) := by
  funext name
  by_cases same : name = bound
  · subst name
    simp [position, meaningUnder, depth?_cons]
  · simp only [position, meaningUnder, depth?_cons, Ne.symm same, Function.update_of_ne same,
      if_false]
    cases depth? binders name <;> rfl

theorem namelessUnder_eq_readWith (binders : List String) (term : Term) :
    term.namelessUnder binders = term.readWith (position binders) := by
  induction term generalizing binders with
  | sort place => rfl
  | var name place => rfl
  | app function argument place functionIH argumentIH =>
      simp only [namelessUnder, readWith, functionIH, argumentIH]
  | bind kind bound domain body place domainIH bodyIH =>
      simp only [namelessUnder, readWith, domainIH, bodyIH, position_cons]

/-! What a binder does to meanings that are changed at one name. -/

theorem meaningUnder_self (bound : String) (meaning : String → Nameless) :
    meaningUnder bound meaning bound = .bound 0 :=
  Function.update_self ..

theorem meaningUnder_of_ne {bound name : String} (differ : name ≠ bound)
    (meaning : String → Nameless) : meaningUnder bound meaning name = (meaning name).shift :=
  Function.update_of_ne differ ..

theorem meaningUnder_update_self (bound : String) (meaning : String → Nameless)
    (value : Nameless) :
    meaningUnder bound (Function.update meaning bound value) = meaningUnder bound meaning := by
  funext name
  by_cases same : name = bound
  · rw [same, meaningUnder_self, meaningUnder_self]
  · rw [meaningUnder_of_ne same, meaningUnder_of_ne same, Function.update_of_ne same]

theorem meaningUnder_update_of_ne {bound name : String} (differ : name ≠ bound)
    (meaning : String → Nameless) (value : Nameless) :
    meaningUnder bound (Function.update meaning name value) =
      Function.update (meaningUnder bound meaning) name value.shift := by
  funext other
  by_cases same : other = bound
  · subst other
    rw [meaningUnder_self, Function.update_of_ne (Ne.symm differ), meaningUnder_self]
  · by_cases changed : other = name
    · rw [changed, meaningUnder_of_ne differ, Function.update_self, Function.update_self]
    · rw [meaningUnder_of_ne same, Function.update_of_ne changed, Function.update_of_ne changed,
        meaningUnder_of_ne same]

theorem fill_meaningUnder (bound : String) (meaning : String → Nameless)
    (indices : Nat → Nameless) (names : String → Nameless) :
    (fun name => (meaningUnder bound meaning name).fill (Nameless.lift indices)
      fun name => (names name).shift) =
        meaningUnder bound fun name => (meaning name).fill indices names := by
  funext name
  by_cases same : name = bound
  · rw [same, meaningUnder_self, meaningUnder_self]
    rfl
  · rw [meaningUnder_of_ne same, meaningUnder_of_ne same, Nameless.fill_shift]

/-! The reading depends on the free names only, and filling the reading is
filling what the names mean. -/

theorem readWith_congr (term : Term) {first second : String → Nameless}
    (agree : ∀ name ∈ term.freeNames, first name = second name) :
    term.readWith first = term.readWith second := by
  induction term generalizing first second with
  | sort place => rfl
  | var name place => exact agree name (by simp [freeNames])
  | app function argument place functionIH argumentIH =>
      simp only [freeNames, List.mem_append] at agree
      rw [readWith, functionIH fun name member => agree name (.inl member),
        argumentIH fun name member => agree name (.inr member), readWith]
  | bind kind bound domain body place domainIH bodyIH =>
      simp only [freeNames, List.mem_append, List.mem_filter, decide_eq_true_eq] at agree
      rw [readWith, domainIH fun name member => agree name (.inl member), readWith]
      congr 1
      apply bodyIH
      intro name member
      by_cases same : name = bound
      · rw [same, meaningUnder_self, meaningUnder_self]
      · rw [meaningUnder_of_ne same, meaningUnder_of_ne same, agree name (.inr ⟨member, same⟩)]

theorem fill_readWith (term : Term) (meaning : String → Nameless) (indices : Nat → Nameless)
    (names : String → Nameless) :
    (term.readWith meaning).fill indices names =
      term.readWith fun name => (meaning name).fill indices names := by
  induction term generalizing meaning indices names with
  | sort place => rfl
  | var name place => rfl
  | app function argument place functionIH argumentIH =>
      simp only [readWith, Nameless.fill, functionIH, argumentIH]
  | bind kind bound domain body place domainIH bodyIH =>
      simp only [readWith, Nameless.fill, domainIH, bodyIH, fill_meaningUnder]

theorem shift_readWith (term : Term) (meaning : String → Nameless) :
    (term.readWith meaning).shift = term.readWith fun name => (meaning name).shift := by
  simp only [Nameless.shift, Nameless.relabel_eq_fill, fill_readWith]

theorem readWith_meaningUnder (term : Term) {bound : String} (absent : bound ∉ term.freeNames)
    (meaning : String → Nameless) :
    term.readWith (meaningUnder bound meaning) = (term.readWith meaning).shift := by
  rw [shift_readWith]
  apply readWith_congr
  intro name member
  have differ : name ≠ bound := by
    rintro rfl
    exact absent member
  exact meaningUnder_of_ne differ meaning

theorem readWith_update_of_not_free (term : Term) {name : String}
    (absent : name ∉ term.freeNames) (meaning : String → Nameless) (value : Nameless) :
    term.readWith (Function.update meaning name value) = term.readWith meaning := by
  apply readWith_congr
  intro other member
  have differ : other ≠ name := by
    rintro rfl
    exact absent member
  exact Function.update_of_ne differ value meaning

theorem replaceFree_nameless (term : Term) (name : String) (replacement : Nameless) :
    term.nameless.replaceFree name replacement =
      term.readWith (Function.update .free name replacement) := by
  rw [nameless, namelessUnder_eq_readWith, position_nil, Nameless.replaceFree, fill_readWith]
  congr 1
  funext other
  by_cases same : other = name
  · rw [same, Function.update_self]
    simp [Nameless.fill]
  · rw [Function.update_of_ne same]
    simp [Nameless.fill, same]

theorem instantiate_namelessUnder (body : Term) (name : String) (binders : List String)
    (argument : Nameless) :
    (body.namelessUnder (name :: binders)).instantiate argument =
      body.readWith (Function.update (position binders) name argument) := by
  rw [namelessUnder_eq_readWith, position_cons, Nameless.instantiate, fill_readWith]
  congr 1
  funext other
  by_cases same : other = name
  · rw [same, meaningUnder_self, Function.update_self]
    rfl
  · rw [meaningUnder_of_ne same, Function.update_of_ne same]
    exact Nameless.instantiate_shift (position binders other) argument

/-! Equality up to bound names is equality of readings. -/

theorem alphaEquivalent_iff (pairs : List (String × String)) (left right : Term) :
    left.alphaEquivalent pairs right = true ↔
      left.namelessUnder (pairs.map Prod.fst) = right.namelessUnder (pairs.map Prod.snd) := by
  induction left generalizing pairs right with
  | sort place =>
      cases right with
      | var name place =>
          simp only [alphaEquivalent, namelessUnder]
          split <;> simp
      | _ => simp [alphaEquivalent, namelessUnder]
  | var name place =>
      cases right with
      | var other place =>
          simp only [alphaEquivalent, namelessUnder]
          cases depth? (pairs.map Prod.fst) name <;>
            cases depth? (pairs.map Prod.snd) other <;> simp
      | _ =>
          simp only [alphaEquivalent, namelessUnder]
          split <;> simp
  | app function argument place functionIH argumentIH =>
      cases right with
      | var name place =>
          simp only [alphaEquivalent, namelessUnder]
          split <;> simp
      | app otherFunction otherArgument place =>
          simp only [alphaEquivalent, namelessUnder, Bool.and_eq_true, functionIH, argumentIH,
            Nameless.app.injEq]
      | _ => simp [alphaEquivalent, namelessUnder]
  | bind kind name domain body place domainIH bodyIH =>
      cases right with
      | var name place =>
          simp only [alphaEquivalent, namelessUnder]
          split <;> simp
      | bind otherKind otherName otherDomain otherBody place =>
          simp only [alphaEquivalent, namelessUnder, Bool.and_eq_true, decide_eq_true_eq, domainIH,
            bodyIH, List.map_cons, Nameless.bind.injEq, and_assoc]
      | _ => simp [alphaEquivalent, namelessUnder]

theorem alphaEquivalent_nil_iff (left right : Term) :
    left.alphaEquivalent [] right = true ↔ left.nameless = right.nameless :=
  alphaEquivalent_iff [] left right

/-! A reading tells its binders apart: names and places in it are determined. -/

theorem meaning_eq_of_readWith_eq (term : Term) {first second : String → Nameless}
    (same : term.readWith first = term.readWith second) :
    ∀ name ∈ term.freeNames, first name = second name := by
  induction term generalizing first second with
  | sort place => simp [freeNames]
  | var name place =>
      rw [readWith, readWith] at same
      simpa [freeNames] using same
  | app function argument place functionIH argumentIH =>
      rw [readWith, readWith, Nameless.app.injEq] at same
      intro name member
      rw [freeNames, List.mem_append] at member
      exact member.elim (functionIH same.1 name) (argumentIH same.2 name)
  | bind kind bound domain body place domainIH bodyIH =>
      rw [readWith, readWith, Nameless.bind.injEq] at same
      intro name member
      simp only [freeNames, List.mem_append, List.mem_filter, decide_eq_true_eq] at member
      rcases member with inDomain | ⟨inBody, differ⟩
      · exact domainIH same.2.1 name inDomain
      · have below := bodyIH same.2.2 name inBody
        rw [meaningUnder_of_ne differ, meaningUnder_of_ne differ] at below
        exact Nameless.shift_injective below

theorem position_cons_self (bound : String) (binders : List String) :
    position (bound :: binders) bound = .bound 0 := by
  rw [position_cons, meaningUnder_self]

theorem position_cons_of_ne {bound name : String} (differ : name ≠ bound)
    (binders : List String) :
    position (bound :: binders) name = (position binders name).shift := by
  rw [position_cons, meaningUnder_of_ne differ]

/-! Terms that read alike have one shape, and their parts read alike. -/

inductive SameShape (binders others : List String) : Term → Term → Prop
  | sort (place otherPlace : Option Location) :
      SameShape binders others (.sort place) (.sort otherPlace)
  | var {name other : String} (place otherPlace : Option Location) :
      position binders name = position others other →
        SameShape binders others (.var name place) (.var other otherPlace)
  | app {function argument otherFunction otherArgument : Term}
      (place otherPlace : Option Location) :
      function.namelessUnder binders = otherFunction.namelessUnder others →
        argument.namelessUnder binders = otherArgument.namelessUnder others →
          SameShape binders others (.app function argument place)
            (.app otherFunction otherArgument otherPlace)
  | bind (kind : BinderKind) {name other : String} {domain body otherDomain otherBody : Term}
      (place otherPlace : Option Location) :
      domain.namelessUnder binders = otherDomain.namelessUnder others →
        body.namelessUnder (name :: binders) = otherBody.namelessUnder (other :: others) →
          SameShape binders others (.bind kind name domain body place)
            (.bind kind other otherDomain otherBody otherPlace)

theorem position_shape (binders : List String) (name : String) :
    (∃ depth, position binders name = .bound depth) ∨ position binders name = .free name := by
  rw [position]
  cases depth? binders name with
  | some depth => exact .inl ⟨depth, rfl⟩
  | none => exact .inr rfl

theorem var_of_reads_position {binders others : List String} {term : Term} {name : String}
    (reads : term.namelessUnder binders = position others name) :
    ∃ other place, term = .var other place := by
  cases term with
  | var other place => exact ⟨other, place, rfl⟩
  | _ =>
      rcases position_shape others name with ⟨depth, bound⟩ | free
      · rw [bound] at reads
        cases reads
      · rw [free] at reads
        cases reads

theorem sameShape_of_namelessUnder_eq {binders others : List String} {left right : Term}
    (same : left.namelessUnder binders = right.namelessUnder others) :
    SameShape binders others left right := by
  cases left with
  | sort place =>
      cases right with
      | sort otherPlace => exact .sort place otherPlace
      | var other otherPlace =>
          obtain ⟨_, _, impossible⟩ := var_of_reads_position same
          cases impossible
      | _ => cases same
  | var name place =>
      obtain ⟨other, otherPlace, rfl⟩ := var_of_reads_position same.symm
      exact .var place otherPlace same
  | app function argument place =>
      cases right with
      | app otherFunction otherArgument otherPlace =>
          rw [namelessUnder, namelessUnder, Nameless.app.injEq] at same
          exact .app place otherPlace same.1 same.2
      | var other otherPlace =>
          obtain ⟨_, _, impossible⟩ := var_of_reads_position same
          cases impossible
      | _ => cases same
  | bind kind name domain body place =>
      cases right with
      | bind otherKind other otherDomain otherBody otherPlace =>
          rw [namelessUnder, namelessUnder, Nameless.bind.injEq] at same
          obtain ⟨rfl, sameDomain, sameBody⟩ := same
          exact .bind kind place otherPlace sameDomain sameBody
      | var other otherPlace =>
          obtain ⟨_, _, impossible⟩ := var_of_reads_position same
          cases impossible
      | _ => cases same

theorem isSort_of_sameShape {binders others : List String} {left right : Term}
    (shape : SameShape binders others left right) : left.isSort = right.isSort := by
  cases shape <;> rfl

/-! Binders around two terms do not change whether they agree. -/

def nameAt (binders : List String) (depth : Nat) : Nameless :=
  .free (binders.getD depth "")

theorem fill_nameAt (binders : List String) (term : Term) :
    (term.namelessUnder binders).fill (nameAt binders) .free = term.nameless := by
  rw [namelessUnder_eq_readWith, fill_readWith, nameless, namelessUnder_eq_readWith, position_nil]
  congr 1
  funext name
  rw [position]
  cases found : depth? binders name with
  | none => rfl
  | some depth =>
      obtain ⟨within, here, _⟩ := List.findIdx?_eq_some_iff_getElem.mp found
      rw [decide_eq_true_eq] at here
      simp only [Nameless.fill, nameAt, List.getD_eq_getElem?_getD, List.getElem?_eq_getElem within,
        here, Option.getD_some]

/-- Binding names is a matter of the reading alone. -/
theorem namelessUnder_eq_fill (binders : List String) (term : Term) :
    term.namelessUnder binders = term.nameless.fill .bound (position binders) := by
  rw [nameless, namelessUnder_eq_readWith, namelessUnder_eq_readWith, position_nil, fill_readWith]
  rfl

theorem namelessUnder_eq_iff (binders : List String) (left right : Term) :
    left.namelessUnder binders = right.namelessUnder binders ↔ left.nameless = right.nameless := by
  constructor
  · intro same
    rw [← fill_nameAt binders, same, fill_nameAt]
  · intro same
    rw [namelessUnder_eq_fill, same, ← namelessUnder_eq_fill]

end Term

end TypeInType
