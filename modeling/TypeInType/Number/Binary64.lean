/-!
Binary floating-point numbers of 64 bits, held exactly: a finite one is
`mantissa * 2 ^ exponent` with a sign. Reading a decimal rounds to the nearest
such number, ties to the even mantissa, in integer arithmetic throughout.
-/

namespace TypeInType

inductive Binary64 where
  | finite (negative : Bool) (mantissa : Nat) (exponent : Int)
  | infinite (negative : Bool)
  | nan
  deriving DecidableEq, Repr

namespace Binary64

def mantissaBits : Nat := 53

/-- A power; one if the exponent is negative. -/
def powerOf (base : Nat) (exponent : Int) : Nat :=
  Nat.pow base exponent.toNat

def mantissaBound : Nat := powerOf 2 mantissaBits

def leastExponent : Int := -1074

def greatestExponent : Int := 971

/-- The quotient rounded to the nearest whole number, ties to the even one. -/
def roundedQuotient (numerator denominator : Nat) : Nat :=
  let quotient := numerator / denominator
  let twice := 2 * (numerator % denominator)
  if twice < denominator then quotient
  else if denominator < twice then quotient + 1
  else quotient + quotient % 2

def scaled (numerator denominator : Nat) (exponent : Int) : Nat :=
  roundedQuotient (numerator * powerOf 2 (-exponent)) (denominator * powerOf 2 exponent)

/-- The number nearest to `numerator / denominator`. The exponent is the one
that leaves 53 bits before rounding, or the least one. -/
def nearest (negative : Bool) (numerator denominator : Nat) : Binary64 :=
  if numerator = 0 then .finite negative 0 0
  else
    let guess : Int := (numerator.log2 : Int) - denominator.log2 - mantissaBits
    let exponent := max leastExponent
      (if scaled numerator denominator guess < mantissaBound then guess else guess + 1)
    let mantissa := scaled numerator denominator exponent
    let carried := mantissa = mantissaBound
    let mantissa := if carried then mantissaBound / 2 else mantissa
    let exponent := if carried then exponent + 1 else exponent
    if greatestExponent < exponent then .infinite negative
    else .finite negative mantissa exponent

/-- The number nearest to `digits * 10 ^ power`. Far outside the range the
answer does not depend on the digits, and no power is formed. -/
def ofDecimal (negative : Bool) (digits : Nat) (power : Int) : Binary64 :=
  let magnitude : Int := (Nat.toDigits 10 digits).length + power
  if digits = 0 ∨ magnitude < -400 then .finite negative 0 0
  else if 400 < magnitude then .infinite negative
  else nearest negative (digits * powerOf 10 power) (powerOf 10 (-power))

def isZero : Binary64 → Bool
  | .finite _ mantissa _ => mantissa = 0
  | _ => false

def truncated (negative : Bool) (mantissa : Nat) (exponent : Int) : Int :=
  let magnitude : Nat := mantissa * powerOf 2 exponent / powerOf 2 (-exponent)
  if negative then -(magnitude : Int) else magnitude

end Binary64

end TypeInType
