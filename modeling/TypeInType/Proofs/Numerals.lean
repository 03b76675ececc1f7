import Mathlib.Data.List.Induction
import Mathlib.Data.List.TakeWhile
import TypeInType.Number.Whole

/-!
The texts that are whole numbers. They are given by a grammar of their own: space, a sign,
digits in groups, and space again.
-/

namespace TypeInType.Whole

/-- Digits, one or more, and between some of them a single underscore. -/
inductive Grouped : (text digits : List Char) → Prop where
  | last {digit : Char} (isDigit : digit.isDigit = true) : Grouped [digit] [digit]
  | next {digit : Char} {text digits : List Char} (isDigit : digit.isDigit = true)
      (rest : Grouped text digits) : Grouped (digit :: text) (digit :: digits)
  | parted {digit : Char} {text digits : List Char} (isDigit : digit.isDigit = true)
      (rest : Grouped text digits) : Grouped (digit :: '_' :: text) (digit :: digits)

inductive Sign : (text : List Char) → (negative : Bool) → Prop where
  | none : Sign [] false
  | plus : Sign ['+'] false
  | minus : Sign ['-'] true

def digitValue (char : Char) : Nat :=
  char.toNat - '0'.toNat

inductive Numeral (value : LooseText) : Int → Prop where
  | of {front sign body digits back : List Char} {negative : Bool}
      (spelled : value.map plain = front ++ (sign ++ (body ++ back)))
      (isFront : ∀ char ∈ front, isPlainSpace char = true) (isSign : Sign sign negative)
      (isBody : Grouped body digits) (isBack : ∀ char ∈ back, isPlainSpace char = true)
      (short : digits.length ≤ greatestLength) :
      Numeral value (withSign negative (valueOf 10 (digits.map digitValue)))

def inNumber (char : Char) : Bool :=
  char.isDigit || char = '_'

theorem notSpace_of_inNumber {char : Char} (inside : inNumber char = true) :
    isPlainSpace char = false := by
  rw [inNumber, Bool.or_eq_true, decide_eq_true_eq] at inside
  rcases inside with isDigit | rfl
  · have least : 48 ≤ char.toNat := by
      rw [Char.isDigit, Bool.and_eq_true, decide_eq_true_eq] at isDigit
      exact UInt32.le_iff_toNat_le.mp isDigit.1
    have notBlank : char ≠ ' ' := by
      rintro rfl
      exact absurd least (by decide)
    rw [isPlainSpace, Bool.or_eq_false_iff, decide_eq_false_iff_not, Bool.and_eq_false_iff,
      decide_eq_false_iff_not, decide_eq_false_iff_not]
    exact ⟨notBlank, .inr (by omega)⟩
  · decide

theorem ne_of_isDigit {digit char : Char} (isDigit : digit.isDigit = true)
    (other : char.isDigit = false) : digit ≠ char := by
  rintro rfl
  rw [isDigit] at other
  cases other

theorem wellGrouped_mono {chars : List Char} (grouped : wellGrouped false chars = true) :
    wellGrouped true chars = true := by
  cases chars with
  | nil => rfl
  | cons char rest =>
      rw [wellGrouped] at grouped ⊢
      split
      · rename_i isBar
        rw [if_pos isBar] at grouped
        cases grouped
      · rename_i notBar
        rwa [if_neg notBar] at grouped

theorem wellGrouped_digit {digit : Char} (isDigit : digit.isDigit = true) (after : Bool)
    (rest : List Char) : wellGrouped after (digit :: rest) = wellGrouped true rest := by
  rw [wellGrouped, if_neg (ne_of_isDigit isDigit (by decide))]

theorem filter_digit {digit : Char} (isDigit : digit.isDigit = true) (rest : List Char) :
    (digit :: rest).filter (· ≠ '_') = digit :: rest.filter (· ≠ '_') := by
  rw [List.filter_cons_of_pos]
  exact decide_eq_true (ne_of_isDigit isDigit (by decide))

theorem isDigit_of_grouped {char : Char} {rest : List Char}
    (inside : ∀ other ∈ char :: rest, inNumber other = true)
    (grouped : wellGrouped false (char :: rest) = true) : char.isDigit = true := by
  have here := inside char List.mem_cons_self
  rw [inNumber, Bool.or_eq_true, decide_eq_true_eq] at here
  rcases here with isDigit | rfl
  · exact isDigit
  · cases grouped

theorem inNumber_digit {digit : Char} (isDigit : digit.isDigit = true) :
    inNumber digit = true := by
  rw [inNumber, isDigit, Bool.true_or]

theorem grouped_iff (text digits : List Char) :
    Grouped text digits ↔ (∀ char ∈ text, inNumber char = true) ∧
      wellGrouped false text = true ∧ text.filter (· ≠ '_') = digits := by
  constructor
  · intro grouped
    induction grouped with
    | last isDigit =>
        refine ⟨List.forall_mem_singleton.mpr (inNumber_digit isDigit), ?_, ?_⟩
        · exact wellGrouped_digit isDigit false []
        · exact filter_digit isDigit []
    | next isDigit rest ih =>
        obtain ⟨inside, grouped, rfl⟩ := ih
        refine ⟨List.forall_mem_cons.mpr ⟨inNumber_digit isDigit, inside⟩, ?_, ?_⟩
        · rw [wellGrouped_digit isDigit]
          exact wellGrouped_mono grouped
        · exact filter_digit isDigit _
    | parted isDigit rest ih =>
        obtain ⟨inside, grouped, rfl⟩ := ih
        have bar : inNumber '_' = true := by decide
        refine ⟨List.forall_mem_cons.mpr ⟨inNumber_digit isDigit,
          List.forall_mem_cons.mpr ⟨bar, inside⟩⟩, ?_, ?_⟩
        · rw [wellGrouped_digit isDigit]
          exact grouped
        · exact filter_digit isDigit _
  · rintro ⟨inside, grouped, rfl⟩
    induction text using List.twoStepInduction with
    | nil => cases grouped
    | singleton char =>
        have isDigit := isDigit_of_grouped inside grouped
        rw [filter_digit isDigit]
        exact .last isDigit
    | cons_cons first second rest ih ihSecond =>
        have isDigit := isDigit_of_grouped inside grouped
        obtain ⟨_, insideRest⟩ := List.forall_mem_cons.mp inside
        rw [wellGrouped_digit isDigit] at grouped
        rw [filter_digit isDigit]
        by_cases bar : second = '_'
        · subst bar
          obtain ⟨_, inside⟩ := List.forall_mem_cons.mp insideRest
          exact .parted isDigit (ih inside grouped)
        · have follows : wellGrouped false (second :: rest) = true := by
            rw [wellGrouped, if_neg bar] at grouped ⊢
            exact grouped
          exact .next isDigit (ihSecond second insideRest follows)

theorem Grouped.begins {text digits : List Char} (grouped : Grouped text digits) :
    ∃ digit rest, text = digit :: rest ∧ digit.isDigit = true := by
  cases grouped with
  | last isDigit => exact ⟨_, _, rfl, isDigit⟩
  | next isDigit _ => exact ⟨_, _, rfl, isDigit⟩
  | parted isDigit _ => exact ⟨_, _, rfl, isDigit⟩

theorem sign_signed (chars : List Char) :
    ∃ sign, Sign sign (signed chars).1 ∧ chars = sign ++ (signed chars).2 := by
  unfold signed
  split
  · exact ⟨['-'], .minus, rfl⟩
  · exact ⟨['+'], .plus, rfl⟩
  · exact ⟨[], .none, rfl⟩

theorem signed_of_sign {sign text digits : List Char} {negative : Bool}
    (isSign : Sign sign negative) (grouped : Grouped text digits) (back : List Char) :
    signed (sign ++ (text ++ back)) = (negative, text ++ back) := by
  cases isSign with
  | none =>
      obtain ⟨digit, rest, rfl, isDigit⟩ := grouped.begins
      have notMinus : digit ≠ '-' := ne_of_isDigit isDigit (by decide)
      have notPlus : digit ≠ '+' := ne_of_isDigit isDigit (by decide)
      rw [List.nil_append, List.cons_append, signed.eq_3 _ (by simpa) (by simpa)]
  | plus => rfl
  | minus => rfl

theorem ofDigitChars_eq_ok_iff (chars : List Char) (magnitude : Nat) :
    ofDigitChars chars = .ok magnitude ↔
      chars.length ≤ greatestLength ∧ magnitude = valueOf 10 (chars.map digitValue) := by
  rw [ofDigitChars]
  split
  · rename_i long
    simp [Nat.not_le.mpr long]
  · rename_i short
    rw [Except.ok.injEq, and_iff_right (Nat.le_of_not_lt short), eq_comm]
    rfl

theorem ofText_of_signed {value : LooseText} {negative : Bool} {body run back : List Char}
    (split : signed ((value.map plain).dropWhile isPlainSpace) = (negative, body))
    (begins : body.takeWhile inNumber = run) (goesOn : body.dropWhile inNumber = back)
    (number : Int) :
    ofText value = .ok number ↔ wellGrouped false run = true ∧
      (run.filter (· ≠ '_')).length ≤ greatestLength ∧
        (∀ char ∈ back, isPlainSpace char = true) ∧
          number = withSign negative (valueOf 10 ((run.filter (· ≠ '_')).map digitValue)) := by
  have folded : (fun char : Char => char.isDigit || decide (char = '_')) = inNumber := rfl
  simp only [ofText, split, folded, begins, goesOn]
  by_cases grouped : wellGrouped false run = true
  · rw [if_pos grouped, and_iff_right grouped]
    cases read : ofDigitChars (run.filter (· ≠ '_')) with
    | error fault =>
        have long : ¬(run.filter (· ≠ '_')).length ≤ greatestLength := by
          intro short
          have taken := (ofDigitChars_eq_ok_iff _ _).mpr ⟨short, rfl⟩
          rw [read] at taken
          cases taken
        exact iff_of_false (fun refused => nomatch refused) fun asked => long asked.1
    | ok magnitude =>
        obtain ⟨short, rfl⟩ := (ofDigitChars_eq_ok_iff _ magnitude).mp read
        rw [and_iff_right short, ← List.dropWhile_eq_nil_iff, ← List.isEmpty_iff]
        dsimp only
        split
        · rename_i ends
          rw [Except.ok.injEq, and_iff_right ends, eq_comm]
        · rename_i more
          simp [more]
  · simp [grouped]

theorem dropWhile_isPlainSpace {sign text digits : List Char} {negative : Bool}
    (isSign : Sign sign negative) (grouped : Grouped text digits) (back : List Char) :
    (sign ++ (text ++ back)).dropWhile isPlainSpace = sign ++ (text ++ back) := by
  cases isSign with
  | none =>
      obtain ⟨digit, rest, rfl, isDigit⟩ := grouped.begins
      have notSpace := notSpace_of_inNumber (inNumber_digit isDigit)
      rw [List.nil_append, List.cons_append, List.dropWhile_cons_of_neg]
      rw [notSpace]
      decide
  | plus => rfl
  | minus => rfl

theorem stops_inNumber {back : List Char} (isBack : ∀ char ∈ back, isPlainSpace char = true) :
    back.takeWhile inNumber = [] ∧ back.dropWhile inNumber = back := by
  cases back with
  | nil => exact ⟨rfl, rfl⟩
  | cons char rest =>
      have outside : ¬inNumber char = true := by
        intro inside
        have isSpace := isBack char List.mem_cons_self
        rw [notSpace_of_inNumber inside] at isSpace
        cases isSpace
      exact ⟨List.takeWhile_cons_of_neg outside, List.dropWhile_cons_of_neg outside⟩

/-- A text is taken for a number where the grammar has it. -/
theorem ofText_eq_ok_iff (value : LooseText) (number : Int) :
    ofText value = .ok number ↔ Numeral value number := by
  constructor
  · intro taken
    obtain ⟨sign, isSign, behind⟩ := sign_signed ((value.map plain).dropWhile isPlainSpace)
    cases split : signed ((value.map plain).dropWhile isPlainSpace) with
    | mk negative body =>
        rw [split] at isSign behind
        obtain ⟨grouped, short, isBack, rfl⟩ := (ofText_of_signed split rfl rfl number).mp taken
        have isBody : Grouped (body.takeWhile inNumber)
            ((body.takeWhile inNumber).filter (· ≠ '_')) :=
          (grouped_iff _ _).mpr ⟨fun char => List.mem_takeWhile_imp, grouped, rfl⟩
        have spelled : value.map plain = (value.map plain).takeWhile isPlainSpace ++
            (sign ++ (body.takeWhile inNumber ++ body.dropWhile inNumber)) := by
          rw [List.takeWhile_append_dropWhile, ← behind, List.takeWhile_append_dropWhile]
        exact .of spelled (fun char => List.mem_takeWhile_imp) isSign isBody isBack short
  · intro numeral
    cases numeral with
    | @of front sign body digits back negative spelled isFront isSign isBody isBack short =>
        obtain ⟨inside, grouped, rfl⟩ := (grouped_iff body digits).mp isBody
        obtain ⟨noMore, rest⟩ := stops_inNumber isBack
        have split := signed_of_sign isSign isBody back
        rw [← dropWhile_isPlainSpace isSign isBody, ← List.dropWhile_append_of_pos isFront,
          ← spelled] at split
        have begins : (body ++ back).takeWhile inNumber = body := by
          rw [List.takeWhile_append_of_pos inside, noMore, List.append_nil]
        have goesOn : (body ++ back).dropWhile inNumber = back := by
          rw [List.dropWhile_append_of_pos inside, rest]
        exact (ofText_of_signed split begins goesOn _).mpr ⟨grouped, short, isBack, rfl⟩

end TypeInType.Whole
