import ModuleLang.Decimal.Shortest
import ModuleLang.Text.Quoted
import ModuleLang.Ty

/-!
Values that a literal can hold. Integers have the width of their type and
floating numbers are bit patterns, so every value of a literal is a value of its
type and equality is equality of representations.
-/

namespace ModuleLang

open ModuleLang.Decimal

inductive Literal
  | int (value : Int32)
  | uint (value : UInt32)
  | long (value : Int64)
  | ulong (value : UInt64)
  | byte (value : UInt8)
  | float (bits : UInt32)
  | double (bits : UInt64)
  | bool (value : Bool)
  | string (value : String)
  | char (value : Char)
  | null
deriving DecidableEq

namespace Literal

instance : Inhabited Literal := ⟨null⟩

def type : Literal → Ty
  | int _ => .int
  | uint _ => .uint
  | long _ => .long
  | ulong _ => .ulong
  | byte _ => .byte
  | float _ => .float
  | double _ => .double
  | bool _ => .bool
  | string _ => .string
  | char _ => .char
  | null => .null

/-- The zero value of a numeric type, `bool` or `char`. -/
def zero? : Ty → Option Literal
  | .int => some (int 0)
  | .uint => some (uint 0)
  | .long => some (long 0)
  | .ulong => some (ulong 0)
  | .byte => some (byte 0)
  | .float => some (float 0)
  | .double => some (double 0)
  | .bool => some (bool false)
  | .char => some (char '\x00')
  | _ => none

theorem type_of_zero? {type : Ty} {zero : Literal} (found : zero? type = some zero) :
    zero.type = type := by
  cases type <;> simp only [zero?, Option.some.injEq, reduceCtorEq] at found <;> subst found <;> rfl

/-- The written form of a literal. Numbers carry the suffix of their type. -/
def text : Literal → String
  | int value => toString value.toInt ++ "i"
  | uint value => toString value.toNat ++ "u"
  | long value => toString value.toInt ++ "l"
  | ulong value => toString value.toNat ++ "ul"
  | byte value => toString value.toNat ++ "b"
  | float bits => display .single bits.toNat ++ "f"
  | double bits => display .double bits.toNat ++ "d"
  | bool value => if value then "true" else "false"
  | string value => Text.quotedString value
  | char value => Text.quotedChar value
  | null => "null"

end Literal

end ModuleLang
