import ModuleLang.Decimal.Scientific
import ModuleLang.Json.Reader
import ModuleLang.Toml
import ModuleLang.Toml.Lexical

/-!
TOML numbers and times. Underscores may stand between two digits. Integers have
64 bits and a sign; a floating number must not be too large for a `double`.
-/

namespace ModuleLang.Toml

open ModuleLang.Text ModuleLang.Decimal

/-- Digits, with single underscores between them; there is at least one digit.
The underscores are left out of what is read. -/
def digits? (isDigit : Char → Bool) : List Char → Option (List Char × List Char)
  | first :: '_' :: second :: rest =>
      if isDigit first then
        match digits? isDigit (second :: rest) with
        | some (digits, rest) => some (first :: digits, rest)
        | none => none
      else none
  | first :: rest =>
      if isDigit first then
        match digits? isDigit rest with
        | some (digits, rest) => some (first :: digits, rest)
        | none => some ([first], rest)
      else none
  | [] => none

def sign : List Char → Bool × List Char
  | '-' :: rest => (true, rest)
  | '+' :: rest => (false, rest)
  | text => (false, text)

/-- Decimal digits that begin with zero only as a single digit. -/
def wholeDigits? : List Char → Option (List Char × List Char)
  | '0' :: rest => some (['0'], rest)
  | text => digits? isAsciiDigit text

def signed (negative : Bool) (value : Nat) : Int := if negative then -(value : Int) else value

/-- An integer that fits 64 bits. -/
def bounded? (value : Int) : Option Toml :=
  if Int64.minValue.toInt ≤ value ∧ value ≤ Int64.maxValue.toInt then some (integer value) else none

/-- Value of digits in a base of at most sixteen. -/
def radixValue? (base : Nat) (digits : List Char) : Option Nat :=
  digits.foldlM (fun value digit => (Json.hexDigit? digit).map fun next => base * value + next) 0

/-- Digits of a base behind its mark. They have no sign. -/
def radixInteger? (base : Nat) (text : List Char) : Option (Toml × List Char) := do
  let isDigit (character : Char) := (Json.hexDigit? character).any (· < base)
  let (digits, rest) ← digits? isDigit text
  return (← bounded? (← radixValue? base digits), rest)

def integer? : List Char → Option (Toml × List Char)
  | '0' :: 'x' :: rest => radixInteger? 16 rest
  | '0' :: 'o' :: rest => radixInteger? 8 rest
  | '0' :: 'b' :: rest => radixInteger? 2 rest
  | text => do
      let (negative, text) := sign text
      let (digits, rest) ← wholeDigits? text
      return (← bounded? (signed negative (digitsValue digits)), rest)

/-- Digits behind a point, if one stands there. -/
def fraction? : List Char → Option (List Char × List Char)
  | '.' :: rest => digits? isAsciiDigit rest
  | text => some ([], text)

/-- A power of ten behind `e` or `E`, if one of them stands there. -/
def power? : List Char → Option (Option Int × List Char)
  | mark :: rest =>
      if mark == 'e' || mark == 'E' then do
        let (negative, rest) := sign rest
        let (digits, rest) ← digits? isAsciiDigit rest
        return (some (signed negative (digitsValue digits)), rest)
      else some (none, mark :: rest)
  | [] => some (none, [])

/-- What a reader read, as it is written. -/
def written (text rest : List Char) : String :=
  String.ofList (text.take (text.length - rest.length))

def namedFloat? : List Char → Option (List Char)
  | 'i' :: 'n' :: 'f' :: rest => some rest
  | 'n' :: 'a' :: 'n' :: rest => some rest
  | _ => none

/-- A number with a fraction, a power of ten or both, or `inf` or `nan`. -/
def float? (text : List Char) : Option (Toml × List Char) := do
  let (negative, unsigned) := sign text
  match namedFloat? unsigned with
  | some rest => return (float (written text rest), rest)
  | none =>
      let (whole, rest) ← wholeDigits? unsigned
      let (fraction, rest) ← fraction? rest
      let (power, rest) ← power? rest
      if fraction.isEmpty && power.isNone then none
      else
        let value : Scientific :=
          ⟨digitsValue (whole ++ fraction), power.getD 0 - fraction.length⟩
        if !negative && value.toBinary .double == BinaryFormat.double.infinityBits then none
        else return (float (written text rest), rest)

/-- Two digits for a number from `low` to `high`. -/
def pair? (low high : Nat) (text : List Char) : Option (Nat × List Char) := do
  let (digits, rest) ← fixedDigits? 2 text
  let value := digitsValue digits
  if low ≤ value ∧ value ≤ high then return (value, rest) else none

def isLeapYear (year : Nat) : Bool := year % 4 == 0 && (year % 100 != 0 || year % 400 == 0)

def daysOfMonth (year month : Nat) : Nat :=
  if month = 2 then if isLeapYear year then 29 else 28
  else if month = 4 ∨ month = 6 ∨ month = 9 ∨ month = 11 then 30
  else 31

/-- What follows a date. -/
def date? (text : List Char) : Option (List Char) := do
  let (year, rest) ← fixedDigits? 4 text
  let (month, rest) ← pair? 1 12 (← after? '-' rest)
  let (day, rest) ← pair? 1 31 (← after? '-' rest)
  if day ≤ daysOfMonth (digitsValue year) month then return rest else none

/-- What follows parts of a second, if they stand there. -/
def skipSecondParts : List Char → List Char
  | '.' :: rest =>
      match rest.takeWhile isAsciiDigit with
      | [] => '.' :: rest
      | digits => rest.drop digits.length
  | text => text

/-- What follows a time of day. A minute may have a leap second. -/
def clock? (text : List Char) : Option (List Char) := do
  let (_, rest) ← pair? 0 23 text
  let (_, rest) ← pair? 0 59 (← after? ':' rest)
  let (_, rest) ← pair? 0 60 (← after? ':' rest)
  return skipSecondParts rest

/-- What follows the distance from universal time. -/
def offset? : List Char → Option (List Char)
  | 'Z' :: rest | 'z' :: rest => some rest
  | '+' :: rest | '-' :: rest => do
      let (_, rest) ← pair? 0 23 rest
      let (_, rest) ← pair? 0 59 (← after? ':' rest)
      return rest
  | _ => none

/-- What follows a time of day behind a date, if one stands there. -/
def skipClock (text : List Char) : List Char :=
  match text with
  | mark :: rest =>
      if mark == 'T' || mark == 't' || mark == ' ' then
        match clock? rest with
        | some rest => (offset? rest).getD rest
        | none => text
      else text
  | [] => text

/-- A date, a date with a time, or a time. -/
def time? (text : List Char) : Option (Toml × List Char) :=
  match date? text with
  | some rest =>
      let rest := skipClock rest
      some (time (written text rest), rest)
  | none => (clock? text).map fun rest => (time (written text rest), rest)

/-- A time, a floating number or an integer. -/
def number? (text : List Char) : Option (Toml × List Char) :=
  time? text <|> float? text <|> integer? text

end ModuleLang.Toml
