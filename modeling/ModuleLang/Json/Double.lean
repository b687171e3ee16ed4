import ModuleLang.Decimal.Scientific
import ModuleLang.Decimal.Shortest
import ModuleLang.Json

/-!
Floating numbers as JSON values: the fewest digits that name the number, in
positional form with a point for decimal exponents from -5 to 15 and with an
exponent otherwise. Of two equally near decimals the even one is written. A
number that is read is rounded once, from its exact value.
-/

namespace ModuleLang.Json

open ModuleLang.Decimal

/-- Decimal exponents that are written in positional form. -/
def isPositional (exponent : Int) : Bool := -5 ≤ exponent && exponent ≤ 15

/-- `d.ddde+x`, without the point if there is one digit. -/
def exponentForm (digits : Nat) (exponent : Int) : String :=
  let text := Nat.toDigits 10 digits
  let fraction := text.drop 1
  String.ofList (text.take 1 ++ (if fraction.isEmpty then [] else '.' :: fraction)) ++
    (if exponent < 0 then "e-" else "e+") ++ toString exponent.natAbs

/-- Text of `digits * 10 ^ power`. The digits do not end in zero. -/
def decimalForm (digits : Nat) (power : Int) : String :=
  let exponent := (Nat.toDigits 10 digits).length + power - 1
  if isPositional exponent then
    if 0 ≤ power then positional digits power ++ ".0" else positional digits power
  else exponentForm digits exponent

/-- Value of a `double` pattern. Infinity and what is no number become `null`. -/
def double (bits : UInt64) : Json :=
  match BinaryFormat.double.decode bits.toNat with
  | .nan | .infinite _ => null
  | .finite negative significand exponent =>
      let (digits, power) :=
        if significand = 0 then (0, 0) else shortest .double .even significand exponent
      number ((if negative then "-" else "") ++ decimalForm digits power)

/-- Value of a `float` pattern: that of the same number as a `double`. -/
def float (bits : UInt32) : Json :=
  double (UInt64.ofNat (BinaryFormat.convert .single .double bits.toNat))

/-- The power of ten that a number is written with behind `e` or `E`. -/
def writtenPower : List Char → Int
  | '-' :: digits => -(digitsValue digits : Int)
  | '+' :: digits => digitsValue digits
  | digits => digitsValue digits

/-- Pattern of the `double` nearest to a number. -/
def doubleBits? : Json → Option UInt64
  | number text =>
      let negative := text.toList.head? == some '-'
      let unsigned := if negative then text.toList.drop 1 else text.toList
      let isMark (character : Char) := character == 'e' || character == 'E'
      let base := unsigned.takeWhile fun character => !isMark character
      let power := writtenPower (unsigned.drop (base.length + 1))
      (Scientific.read? base).map fun value =>
        let bits := Scientific.toBinary .double { value with exponent := value.exponent + power }
        UInt64.ofNat (if negative then BinaryFormat.double.signBit + bits else bits)
  | _ => none

/-- Pattern of the `float` nearest to the `double` that a number stands for. -/
def floatBits? (value : Json) : Option UInt32 :=
  (doubleBits? value).map fun bits =>
    UInt32.ofNat (BinaryFormat.convert .double .single bits.toNat)

end ModuleLang.Json
