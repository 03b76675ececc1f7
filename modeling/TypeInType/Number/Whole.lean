import TypeInType.Text.Loose
import TypeInType.Text.Numeral
import TypeInType.Text.Spacing

/-!
Whole numbers in texts: space around, a sign, and decimal digits of any script
with single underscores between them.
-/

namespace TypeInType

inductive WholeFault where
  | malformed
  | tooLong (digits : Nat)
  deriving DecidableEq, Repr

namespace Whole

def greatestLength : Nat := 4300

def valueOf (base : Nat) (digits : List Nat) : Nat :=
  digits.foldl (fun value digit => value * base + digit) 0

def hexDigit? (char : Char) : Option Nat :=
  if char.isDigit then some (char.toNat - '0'.toNat)
  else if 'a' ≤ char ∧ char ≤ 'f' then some (char.toNat - 'a'.toNat + 10)
  else if 'A' ≤ char ∧ char ≤ 'F' then some (char.toNat - 'A'.toNat + 10)
  else none

/-- Spacing and digits of all scripts become plain ones. Any other character
that is not plain spoils the number. -/
def plain : CodePoint → Char
  | .character char =>
      if char.toNat < 127 then char
      else if isSpacing char then ' '
      else
        match decimalDigit? char with
        | some digit => digit.digitChar
        | none => '?'
  | .surrogate _ => '?'

def isPlainSpace (char : Char) : Bool :=
  char = ' ' || (9 ≤ char.toNat && char.toNat ≤ 13)

/-- Every underscore stands between two digits. -/
def wellGrouped (afterDigit : Bool) : List Char → Bool
  | [] => afterDigit
  | char :: rest =>
      if char = '_' then afterDigit && wellGrouped false rest else wellGrouped true rest

def signed (chars : List Char) : Bool × List Char :=
  match chars with
  | '-' :: rest => (true, rest)
  | '+' :: rest => (false, rest)
  | rest => (false, rest)

def withSign (negative : Bool) (magnitude : Nat) : Int :=
  if negative then -(magnitude : Int) else magnitude

def ofDigitChars (chars : List Char) : Except WholeFault Nat :=
  if greatestLength < chars.length then .error (.tooLong chars.length)
  else .ok (valueOf 10 (chars.map fun char => char.toNat - '0'.toNat))

def ofText (value : LooseText) : Except WholeFault Int :=
  let (negative, body) := signed ((value.map plain).dropWhile isPlainSpace)
  let inNumber (char : Char) : Bool := char.isDigit || char = '_'
  let run := body.takeWhile inNumber
  if wellGrouped false run then
    match ofDigitChars (run.filter (· ≠ '_')) with
    | .error fault => .error fault
    | .ok magnitude =>
        if ((body.dropWhile inNumber).dropWhile isPlainSpace).isEmpty then
          .ok (withSign negative magnitude)
        else .error .malformed
  else .error .malformed

end Whole

end TypeInType
