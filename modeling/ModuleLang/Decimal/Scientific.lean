import ModuleLang.Decimal.Binary
import ModuleLang.Text.Letter

/-!
Decimal numbers as written: digits, an optional fraction and an optional power
of ten. The grammar has no sign. A written number is rounded once, from its
exact value, to a binary format.
-/

namespace ModuleLang.Decimal

open ModuleLang.Text

/-- The number `digits * 10 ^ exponent`. -/
structure Scientific where
  digits : Nat
  exponent : Int
deriving DecidableEq

def digitValue (character : Char) : Nat := character.toNat - '0'.toNat

/-- Value of a row of decimal digits. -/
def digitsValue (digits : List Char) : Nat :=
  digits.foldl (fun value digit => 10 * value + digitValue digit) 0

def isDigits (text : List Char) : Bool := text.all isAsciiDigit

namespace Scientific

/-- The power of ten behind the digits: nothing, or `e` or `E` and digits. -/
def readExponent? : List Char → Option Nat
  | [] => some 0
  | mark :: power =>
      if (mark == 'e' || mark == 'E') && !power.isEmpty && isDigits power then
        some (digitsValue power)
      else none

/-- Reads a whole text. One digit must stand before or behind the point. -/
def read? (text : List Char) : Option Scientific :=
  let whole := text.takeWhile isAsciiDigit
  let rest := text.dropWhile isAsciiDigit
  let (fraction, rest) :=
    match rest with
    | '.' :: behind => (behind.takeWhile isAsciiDigit, behind.dropWhile isAsciiDigit)
    | _ => ([], rest)
  if whole.isEmpty && fraction.isEmpty then none
  else
    (readExponent? rest).map fun power =>
      ⟨digitsValue (whole ++ fraction), (power : Int) - fraction.length⟩

/-- Pattern of the nearest number of a format. Powers of ten that lie beyond the
format by their powers of eight alone are not multiplied out. -/
def toBinary (format : BinaryFormat) (number : Scientific) : Nat :=
  let magnitude : Int := Nat.log2 number.digits
  if number.digits = 0 then 0
  else if (0 : Int) ≤ number.exponent then
    if magnitude + 3 * number.exponent > (format.bias : Int) then format.infinityBits
    else format.nearest (number.digits * Nat.pow 10 number.exponent.toNat) 1
  else if magnitude + 1 + 3 * number.exponent < format.lowestExponent then 0
  else format.nearest number.digits (Nat.pow 10 (-number.exponent).toNat)

end Scientific

end ModuleLang.Decimal
