/-!
Binary floating numbers as bit patterns. A format has a fraction field and an
exponent field below its sign bit; `decode` reads a pattern as a significand
times a power of two, and `nearest` gives the pattern of the number closest to a
fraction of natural numbers, halves going to the even significand.
-/

namespace ModuleLang.Decimal

structure BinaryFormat where
  fractionBits : Nat
  exponentBits : Nat
deriving DecidableEq

namespace BinaryFormat

def single : BinaryFormat := ⟨23, 8⟩

def double : BinaryFormat := ⟨52, 11⟩

def bias (format : BinaryFormat) : Nat := 1 <<< (format.exponentBits - 1) - 1

/-- Exponent of the last place of the smallest numbers. -/
def lowestExponent (format : BinaryFormat) : Int :=
  1 - (format.bias : Int) - (format.fractionBits : Int)

/-- Pattern of infinity, above the patterns of all positive finite numbers. -/
def infinityBits (format : BinaryFormat) : Nat :=
  (1 <<< format.exponentBits - 1) <<< format.fractionBits

def signBit (format : BinaryFormat) : Nat :=
  1 <<< (format.exponentBits + format.fractionBits)

end BinaryFormat

/-- What a bit pattern stands for. A finite number is
`significand * 2 ^ exponent` with its sign; zero keeps a sign too. -/
inductive BinaryNumber
  | nan
  | infinite (negative : Bool)
  | finite (negative : Bool) (significand : Nat) (exponent : Int)
deriving DecidableEq

namespace BinaryFormat

def decode (format : BinaryFormat) (bits : Nat) : BinaryNumber :=
  let fraction := bits % 1 <<< format.fractionBits
  let exponent := bits >>> format.fractionBits % 1 <<< format.exponentBits
  let negative := bits / format.signBit % 2 == 1
  if exponent = 1 <<< format.exponentBits - 1 then
    if fraction = 0 then .infinite negative else .nan
  else if exponent = 0 then .finite negative fraction format.lowestExponent
  else
    .finite negative (fraction + 1 <<< format.fractionBits)
      (format.lowestExponent + (exponent : Int) - 1)

/-- `value * 2 ^ exponent` as a fraction. -/
def scaled (value : Nat) (exponent : Int) : Nat × Nat :=
  (value <<< exponent.toNat, 1 <<< (-exponent).toNat)

/-- The quotient rounded to the nearest natural number, halves to the even one. -/
def roundHalfEven (numerator denominator : Nat) : Nat :=
  let quotient := numerator / denominator
  let rest := numerator % denominator
  if 2 * rest < denominator then quotient
  else if denominator < 2 * rest then quotient + 1
  else if quotient % 2 = 0 then quotient else quotient + 1

/-- Largest `exponent` with `2 ^ exponent * denominator ≤ numerator`, for a
positive fraction. -/
def binaryMagnitude (numerator denominator : Nat) : Int :=
  let guess := (Nat.log2 numerator : Int) - (Nat.log2 denominator : Int)
  let (left, right) := scaled denominator guess
  if left ≤ numerator * right then guess else guess - 1

/-- Pattern of the number nearest to a fraction. The significand is counted in
the last place that the fraction's magnitude allows; adding it to the exponent
field carries a rounded-up significand into the next magnitude, and what would
pass the largest number becomes infinity. -/
def nearest (format : BinaryFormat) (numerator denominator : Nat) : Nat :=
  if numerator = 0 then 0
  else
    let place :=
      max format.lowestExponent (binaryMagnitude numerator denominator - format.fractionBits)
    let (left, right) := scaled denominator place
    let significand := roundHalfEven (numerator * right) left
    min format.infinityBits
      ((place - format.lowestExponent).toNat <<< format.fractionBits + significand)

/-- The same number in another format: exact when the other format is wider. -/
def convert (source target : BinaryFormat) (bits : Nat) : Nat :=
  let signed (negative : Bool) (pattern : Nat) :=
    if negative then target.signBit + pattern else pattern
  match source.decode bits with
  | .nan => target.infinityBits + 1 <<< (target.fractionBits - 1)
  | .infinite negative => signed negative target.infinityBits
  | .finite negative significand exponent =>
      let (numerator, denominator) := scaled significand exponent
      signed negative (target.nearest numerator denominator)

end BinaryFormat

end ModuleLang.Decimal
