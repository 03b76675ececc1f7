import TypeInType.Term.Nameless

/-!
Substitution for nameless terms. An index that points past all binders of a term
and a free name are both holes: `fill` puts a term into every one of them at
once. Replacing one name and instantiating the body of a binder are two fillings,
and the laws of both follow from the laws of `fill`.
-/

namespace TypeInType.Nameless

def liftLabel (label : Nat → Nat) : Nat → Nat
  | 0 => 0
  | depth + 1 => label depth + 1

def relabel (label : Nat → Nat) : Nameless → Nameless
  | .sort => .sort
  | .bound depth => .bound (label depth)
  | .free name => .free name
  | .app function argument => .app (function.relabel label) (argument.relabel label)
  | .bind kind domain body => .bind kind (domain.relabel label) (body.relabel (liftLabel label))

def shift (term : Nameless) : Nameless :=
  term.relabel Nat.succ

def lift (indices : Nat → Nameless) : Nat → Nameless
  | 0 => .bound 0
  | depth + 1 => (indices depth).shift

/-- Every hole is filled: indices past all binders by `indices`, names by `names`. -/
def fill (indices : Nat → Nameless) (names : String → Nameless) : Nameless → Nameless
  | .sort => .sort
  | .bound depth => indices depth
  | .free name => names name
  | .app function argument => .app (function.fill indices names) (argument.fill indices names)
  | .bind kind domain body =>
      .bind kind (domain.fill indices names)
        (body.fill (lift indices) fun name => (names name).shift)

def replaceFree (term : Nameless) (name : String) (replacement : Nameless) : Nameless :=
  term.fill .bound fun other => if other = name then replacement else .free other

/-- Index 0 becomes the argument; the other indices lose one binder. -/
def argumentOr (argument : Nameless) : Nat → Nameless
  | 0 => argument
  | depth + 1 => .bound depth

def instantiate (body argument : Nameless) : Nameless :=
  body.fill (argumentOr argument) .free

/-! Relabelling is a filling, and fillings compose. As usual the laws come in the
order relabel-relabel, relabel-fill, fill-relabel, fill-fill, since each needs the
one before it under binders. -/

theorem liftLabel_comp (first second : Nat → Nat) :
    liftLabel (second ∘ first) = liftLabel second ∘ liftLabel first := by
  funext depth
  cases depth <;> rfl

theorem relabel_relabel (first second : Nat → Nat) (term : Nameless) :
    (term.relabel first).relabel second = term.relabel (second ∘ first) := by
  induction term generalizing first second with
  | sort => rfl
  | bound depth => rfl
  | free name => rfl
  | app function argument functionIH argumentIH =>
      simp only [relabel, functionIH, argumentIH]
  | bind kind domain body domainIH bodyIH =>
      simp only [relabel, domainIH, bodyIH, liftLabel_comp]

theorem relabel_shift (label : Nat → Nat) (term : Nameless) :
    term.shift.relabel (liftLabel label) = (term.relabel label).shift := by
  simp only [shift, relabel_relabel]
  rfl

theorem fill_relabel (label : Nat → Nat) (indices : Nat → Nameless) (names : String → Nameless)
    (term : Nameless) :
    (term.relabel label).fill indices names = term.fill (indices ∘ label) names := by
  induction term generalizing label indices names with
  | sort => rfl
  | bound depth => rfl
  | free name => rfl
  | app function argument functionIH argumentIH =>
      simp only [relabel, fill, functionIH, argumentIH]
  | bind kind domain body domainIH bodyIH =>
      have lifted : lift indices ∘ liftLabel label = lift (indices ∘ label) := by
        funext depth
        cases depth <;> rfl
      simp only [relabel, fill, domainIH, bodyIH, lifted]

theorem relabel_fill (indices : Nat → Nameless) (names : String → Nameless) (label : Nat → Nat)
    (term : Nameless) :
    (term.fill indices names).relabel label =
      term.fill (fun depth => (indices depth).relabel label)
        fun name => (names name).relabel label := by
  induction term generalizing label indices names with
  | sort => rfl
  | bound depth => rfl
  | free name => rfl
  | app function argument functionIH argumentIH =>
      simp only [relabel, fill, functionIH, argumentIH]
  | bind kind domain body domainIH bodyIH =>
      have lifted : (fun depth => (lift indices depth).relabel (liftLabel label)) =
          lift fun depth => (indices depth).relabel label := by
        funext depth
        cases depth with
        | zero => rfl
        | succ depth => exact relabel_shift label (indices depth)
      simp only [relabel, fill, domainIH, bodyIH, lifted, relabel_shift]

theorem fill_shift (indices : Nat → Nameless) (names : String → Nameless) (term : Nameless) :
    term.shift.fill (lift indices) (fun name => (names name).shift) =
      (term.fill indices names).shift := by
  simp only [shift, fill_relabel, relabel_fill]
  rfl

theorem fill_fill (indices : Nat → Nameless) (names : String → Nameless)
    (nextIndices : Nat → Nameless) (nextNames : String → Nameless) (term : Nameless) :
    (term.fill indices names).fill nextIndices nextNames =
      term.fill (fun depth => (indices depth).fill nextIndices nextNames)
        fun name => (names name).fill nextIndices nextNames := by
  induction term generalizing indices names nextIndices nextNames with
  | sort => rfl
  | bound depth => rfl
  | free name => rfl
  | app function argument functionIH argumentIH =>
      simp only [fill, functionIH, argumentIH]
  | bind kind domain body domainIH bodyIH =>
      have lifted : (fun depth => (lift indices depth).fill (lift nextIndices)
            fun name => (nextNames name).shift) =
          lift fun depth => (indices depth).fill nextIndices nextNames := by
        funext depth
        cases depth with
        | zero => rfl
        | succ depth => exact fill_shift nextIndices nextNames (indices depth)
      simp only [fill, domainIH, bodyIH, lifted, fill_shift]

theorem lift_bound : lift .bound = .bound := by
  funext depth
  cases depth <;> rfl

theorem fill_bound_free (term : Nameless) : term.fill .bound .free = term := by
  induction term with
  | sort => rfl
  | bound depth => rfl
  | free name => rfl
  | app function argument functionIH argumentIH =>
      simp only [fill, functionIH, argumentIH]
  | bind kind domain body domainIH bodyIH =>
      have shifted : (fun name => (Nameless.free name).shift) = Nameless.free := rfl
      simp only [fill, lift_bound, shifted, domainIH, bodyIH]

theorem relabel_eq_fill (label : Nat → Nat) (term : Nameless) :
    term.relabel label = term.fill (.bound ∘ label) .free := by
  rw [← fill_relabel, fill_bound_free]

theorem instantiate_shift (term argument : Nameless) : term.shift.instantiate argument = term := by
  rw [instantiate, shift, fill_relabel]
  exact fill_bound_free term

theorem shift_injective : Function.Injective shift := by
  intro left right same
  rw [← instantiate_shift left .sort, same, instantiate_shift]

theorem shift_ne_bound_zero (term : Nameless) : term.shift ≠ .bound 0 := by
  cases term <;> simp [shift, relabel]

theorem fill_instantiate (indices : Nat → Nameless) (names : String → Nameless)
    (body argument : Nameless) :
    (body.instantiate argument).fill indices names =
      (body.fill (lift indices) fun name => (names name).shift).instantiate
        (argument.fill indices names) := by
  simp only [instantiate, fill_fill]
  congr 1
  -- Index 0 is the argument either way; past it, the shift and the instantiation cancel.
  · funext depth
    cases depth with
    | zero => rfl
    | succ depth => exact (instantiate_shift (indices depth) _).symm
  · funext name
    exact (instantiate_shift (names name) _).symm

end TypeInType.Nameless
