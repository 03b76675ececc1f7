import TypeInType.Number.Binary64

/-!
The shortest decimal that reads back as a given binary number, and its written
form. A decimal reads back when it lies in the interval of numbers that round
to the given one; the ends belong to it when the mantissa is even. If any
decimal of a given length reads back, so does one of the two neighbours of the
number itself on that grid.
-/

namespace TypeInType.Binary64

/-- A positive finite number over a common denominator with its rounding
interval: `low / unit`, `value / unit` and `high / unit`. -/
structure Interval where
  low : Nat
  value : Nat
  high : Nat
  unit : Nat
  closed : Bool

def Interval.of (mantissa : Nat) (exponent : Int) : Interval :=
  let factor := powerOf 2 exponent
  let below : Nat := if mantissa = mantissaBound / 2 ∧ leastExponent < exponent then 1 else 2
  { low := (4 * mantissa - below) * factor
    value := 4 * mantissa * factor
    high := (4 * mantissa + 2) * factor
    unit := 4 * powerOf 2 (-exponent)
    closed := mantissa % 2 = 0 }

def Interval.holds (interval : Interval) (digits : Nat) (power : Int) : Bool :=
  let point := digits * powerOf 10 power * interval.unit
  let scale := powerOf 10 (-power)
  if interval.closed then
    interval.low * scale ≤ point && point ≤ interval.high * scale
  else
    interval.low * scale < point && point < interval.high * scale

def Interval.below (interval : Interval) (power : Int) : Nat :=
  interval.value * powerOf 10 (-power) / (interval.unit * powerOf 10 power)

def Interval.nearerAbove (interval : Interval) (power : Int) : Bool :=
  let step := interval.unit * powerOf 10 power
  let rest := interval.value * powerOf 10 (-power) % step
  step < 2 * rest || (step == 2 * rest && interval.below power % 2 == 1)

def Interval.pick? (interval : Interval) (power : Int) : Option Nat :=
  let lower := interval.below power
  let lowerHolds := 0 < lower && interval.holds lower power
  let upperHolds := interval.holds (lower + 1) power
  if lowerHolds && upperHolds then
    some (if interval.nearerAbove power then lower + 1 else lower)
  else if lowerHolds then some lower
  else if upperHolds then some (lower + 1)
  else none

/-- Tries ever finer grids, at most seventeen of them. -/
def Interval.search (interval : Interval) : Nat → Int → Nat × Int
  | 0, power => (interval.below power, power)
  | tries + 1, power =>
      match interval.pick? power with
      | some digits => (digits, power)
      | none => interval.search tries (power - 1)

def Interval.leading (interval : Interval) : Int :=
  if interval.unit ≤ interval.value then
    ((Nat.toDigits 10 (interval.value / interval.unit)).length : Int) - 1
  else
    -((Nat.toDigits 10 ((interval.unit - 1) / interval.value)).length : Int)

def withoutTrailingZeros (digits : Nat) (power : Int) : Nat → Nat × Int
  | 0 => (digits, power)
  | fuel + 1 =>
      if digits ≠ 0 ∧ digits % 10 = 0 then
        withoutTrailingZeros (digits / 10) (power + 1) fuel
      else (digits, power)

def shortest (mantissa : Nat) (exponent : Int) : Nat × Int :=
  let interval := Interval.of mantissa exponent
  let (digits, power) := interval.search 18 (interval.leading + 1)
  withoutTrailingZeros digits power 20

/-- Digits are written positionally from `10 ^ -4` up to `10 ^ 16`, and with an
exponent of at least two digits outside; a whole number keeps `.0`. -/
def decimalText (digits : Nat) (power : Int) : String :=
  let shown := Nat.toDigits 10 digits
  let point : Int := shown.length + power
  if -4 < point ∧ point ≤ 16 then
    if point ≤ 0 then
      "0." ++ String.ofList (List.replicate (-point).toNat '0' ++ shown)
    else if 0 ≤ power then
      String.ofList (shown ++ List.replicate power.toNat '0') ++ ".0"
    else
      String.ofList (shown.take point.toNat) ++ "." ++ String.ofList (shown.drop point.toNat)
  else
    let exponent := point - 1
    let tail := Nat.toDigits 10 exponent.natAbs
    let tail := if tail.length < 2 then '0' :: tail else tail
    let fraction := if shown.length = 1 then [] else '.' :: shown.drop 1
    String.ofList (shown.take 1 ++ fraction ++ ['e', if exponent < 0 then '-' else '+'] ++ tail)

def text : Binary64 → String
  | .nan => "nan"
  | .infinite negative => if negative then "-inf" else "inf"
  | .finite negative mantissa exponent =>
      let sign := if negative then "-" else ""
      if mantissa = 0 then sign ++ "0.0"
      else
        let (digits, power) := shortest mantissa exponent
        sign ++ decimalText digits power

end TypeInType.Binary64
