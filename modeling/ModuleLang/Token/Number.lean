import ModuleLang.Decimal.Scientific
import ModuleLang.Literal
import ModuleLang.Text.Letter

/-!
Number lexemes. A lexeme ends in a suffix of ASCII letters, which selects the
type; what stands before the suffix is its body. Integer bodies are decimal
digits whose value the type can hold, floating bodies are decimal numbers. A
lexeme with neither suffix nor point is an `int`, and one with a point and no
suffix a `double`.
-/

namespace ModuleLang.Number

open ModuleLang.Text ModuleLang.Decimal

/-- Characters of a number lexeme at the start of a text: letters, digits and
underscores, and the first point that an ASCII digit follows. -/
def lexeme (seenPoint : Bool) : List Char → List Char
  | [] => []
  | character :: rest =>
      if isAlphanumeric character || character == '_' then character :: lexeme seenPoint rest
      else if character == '.' && !seenPoint && rest.head?.any isAsciiDigit then
        character :: lexeme true rest
      else []

/-- Body and suffix of a lexeme. -/
def split (text : List Char) : List Char × List Char :=
  ((text.reverse.dropWhile isAsciiLetter).reverse, (text.reverse.takeWhile isAsciiLetter).reverse)

/-- The type that a suffix selects. -/
def suffixType? (body suffix : List Char) : Option Ty :=
  match suffix with
  | [] => some (if body.contains '.' then .double else .int)
  | ['i'] => some .int
  | ['u'] => some .uint
  | ['l'] => some .long
  | ['u', 'l'] => some .ulong
  | ['b'] => some .byte
  | ['f'] => some .float
  | ['d'] => some .double
  | _ => none

/-- Value of a body of digits, if it lies below `bound`. -/
def natural? (bound : Nat) (body : List Char) : Option Nat :=
  if isDigits body && digitsValue body < bound then some (digitsValue body) else none

/-- Literal of a numeric type with a body. -/
def literal? (type : Ty) (body : List Char) : Option Literal :=
  match type with
  | .int => (natural? (1 <<< 31) body).map fun value => .int (Int32.ofNat value)
  | .uint => (natural? UInt32.size body).map fun value => .uint (UInt32.ofNat value)
  | .long => (natural? (1 <<< 63) body).map fun value => .long (Int64.ofNat value)
  | .ulong => (natural? UInt64.size body).map fun value => .ulong (UInt64.ofNat value)
  | .byte => (natural? UInt8.size body).map fun value => .byte (UInt8.ofNat value)
  | .float =>
      (Scientific.read? body).map fun number => .float (UInt32.ofNat (number.toBinary .single))
  | .double =>
      (Scientific.read? body).map fun number => .double (UInt64.ofNat (number.toBinary .double))
  | _ => none

/-- What a number lexeme stands for. On failure the value is the zero of the
type that the suffix asked for, and an `int` zero for an unknown suffix. -/
def read (text : List Char) : Except Literal Literal :=
  let (body, suffix) := split text
  match suffixType? body suffix with
  | none => .error (.int 0)
  | some type =>
      let fallback := (Literal.zero? type).getD (.int 0)
      if body.isEmpty || body.contains '_' then .error fallback
      else (literal? type body).elim (.error fallback) .ok

end ModuleLang.Number
