import ModuleLang.Decimal.Binary

/-!
The fewest decimal digits that still name a binary number. Around every number
of a format lies the interval of all values that round to it; its ends belong to
it when the significand is even. The decimal grids are tried from coarse to
fine, and on the first grid that meets the interval the nearer of the number's
two neighbours is taken.
-/

namespace ModuleLang.Decimal

/-- Which of two equally near decimals is taken. -/
inductive TieBreak
  | up
  | even
deriving DecidableEq

/-- A number and the interval that rounds to it, over one denominator. -/
structure RoundingInterval where
  low : Nat
  value : Nat
  high : Nat
  denominator : Nat
  closed : Bool

namespace RoundingInterval

/-- Interval of `significand * 2 ^ exponent`. Below a power of two that is not
the lowest the neighbours lie half as far away. -/
def around (format : BinaryFormat) (significand : Nat) (exponent : Int) : RoundingInterval :=
  let narrow := significand = 1 <<< format.fractionBits ∧ exponent > format.lowestExponent
  let (unit, denominator) := BinaryFormat.scaled 1 (exponent - 2)
  { low := (4 * significand - if narrow then 1 else 2) * unit
    value := 4 * significand * unit
    high := (4 * significand + 2) * unit
    denominator
    closed := significand % 2 == 0 }

/-- Whether `numerator / denominator` lies in the interval. -/
def contains (interval : RoundingInterval) (numerator denominator : Nat) : Bool :=
  let point := numerator * interval.denominator
  let low := interval.low * denominator
  let high := interval.high * denominator
  if interval.closed then low ≤ point && point ≤ high else low < point && point < high

/-- The nearest multiple of `10 ^ power` in the interval, as its factor, if the
grid meets the interval. -/
def onGrid? (interval : RoundingInterval) (tie : TieBreak) (power : Int) : Option Nat :=
  let step := Nat.pow 10 power.toNat
  let denominator := Nat.pow 10 (-power).toNat
  let below := interval.value * denominator / (interval.denominator * step)
  let hits (factor : Nat) := interval.contains (factor * step) denominator
  if hits below then
    if hits (below + 1) then
      let left := 2 * interval.value * denominator
      let right := (2 * below + 1) * step * interval.denominator
      if left < right then some below
      else if right < left then some (below + 1)
      else
        match tie with
        | .up => some (below + 1)
        | .even => if below % 2 = 0 then some below else some (below + 1)
    else some below
  else if hits (below + 1) then some (below + 1)
  else none

/-- First grid that meets the interval, from `10 ^ power` downwards. -/
def search (interval : RoundingInterval) (tie : TieBreak) : (steps : Nat) → Int → Nat × Int
  | 0, power => (0, power)
  | steps + 1, power =>
      match interval.onGrid? tie power with
      | some factor => (factor, power)
      | none => search interval tie steps (power - 1)

end RoundingInterval

/-- Digits and power of ten of the shortest decimal that rounds to a positive
number. The search begins above the number, and a grid as fine as the gap
between two numbers cannot miss the interval. -/
def shortest (format : BinaryFormat) (tie : TieBreak) (significand : Nat) (exponent : Int) :
    Nat × Int :=
  let magnitude : Int := Nat.log2 significand + exponent
  (RoundingInterval.around format significand exponent).search tie (format.fractionBits + 4)
    (magnitude * 30103 / 100000 + 2)

/-- Text of `digits * 10 ^ power` without an exponent. -/
def positional (digits : Nat) (power : Int) : String :=
  let text := Nat.toDigits 10 digits
  let point := (text.length : Int) + power
  if 0 ≤ power then String.ofList (text ++ List.replicate power.toNat '0')
  else if 0 < point then
    String.ofList (text.take point.toNat ++ '.' :: text.drop point.toNat)
  else String.ofList ('0' :: '.' :: List.replicate (-point).toNat '0' ++ text)

/-- Shortest positional text of a bit pattern; whole numbers have no point, and
of two equally near decimals the upper one is shown. -/
def display (format : BinaryFormat) (bits : Nat) : String :=
  let signed (negative : Bool) (text : String) := if negative then "-" ++ text else text
  match format.decode bits with
  | .nan => "NaN"
  | .infinite negative => signed negative "inf"
  | .finite negative significand exponent =>
      if significand = 0 then signed negative "0"
      else
        let (digits, power) := shortest format .up significand exponent
        signed negative (positional digits power)

end ModuleLang.Decimal
