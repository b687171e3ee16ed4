import ModuleLang.Json
import ModuleLang.Json.Double
import ModuleLang.Literal

/-!
Records of types and literals: JSON values for other tools, and their readers. A
record is the name of an alternative, with what belongs to it as the member of
that name. Numbers that do not fit their type are no records of it.
-/

namespace ModuleLang

namespace Ty

/-- The types that are a name alone. -/
def simpleNames : List (String × Ty) :=
  [("Int", int), ("UInt", uint), ("Long", long), ("ULong", ulong), ("Byte", byte),
    ("Float", float), ("Double", double), ("Bool", bool), ("String", string), ("Char", char),
    ("Any", any), ("Void", void), ("Null", null)]

/-- Name of a type that is a name alone. -/
def simpleName? (type : Ty) : Option String :=
  (simpleNames.find? fun entry => entry.2 == type).map Prod.fst

def record : Ty → Json
  | array element rank =>
      .record [("Array", .record [("element", element.record), ("rank", .nat rank)])]
  | named name => .record [("Named", .string name)]
  | simple => .ofOption (simple.simpleName?.map Json.string)

/-- Largest rank that a record can hold. -/
def recordRankLimit : Nat := 255

def rankOfRecord? (value : Json) : Option Nat := value.nat?.filter (· ≤ recordRankLimit)

mutual

def ofRecord? : Json → Option Ty
  | .string name => simpleNames.lookup name
  | .object [("Named", .string name)] => some (named name)
  | .object [("Array", .object layer)] => do
      let rank ← (layer.lookup "rank").bind rankOfRecord?
      return array (← elementOfRecord? layer) rank
  | _ => none

/-- The element type among the members of an array's record. -/
def elementOfRecord? : List (String × Json) → Option Ty
  | [] => none
  | (name, value) :: members =>
      if name = "element" then ofRecord? value else elementOfRecord? members

end

end Ty

namespace Literal

/-- A literal under the name of its type; `null` is a name alone. -/
def record : Literal → Json
  | int value => .record [("Int", .int value.toInt)]
  | uint value => .record [("UInt", .nat value.toNat)]
  | long value => .record [("Long", .int value.toInt)]
  | ulong value => .record [("ULong", .nat value.toNat)]
  | byte value => .record [("Byte", .nat value.toNat)]
  | float bits => .record [("Float", .float bits)]
  | double bits => .record [("Double", .double bits)]
  | bool value => .record [("Bool", .bool value)]
  | string value => .record [("String", .string value)]
  | char value => .record [("Char", .string value.toString)]
  | null => .string "Null"

/-- A number below a bound. -/
def naturalBelow? (bound : Nat) (value : Json) : Option Nat := value.nat?.filter (· < bound)

/-- An integer from `-bound` up to but not including `bound`. -/
def integerWithin? (bound : Nat) (value : Json) : Option Int :=
  value.int?.filter fun number => -(bound : Int) ≤ number && number < bound

def ofRecord? : Json → Option Literal
  | .string "Null" => some null
  | .object [(name, value)] =>
      match name with
      | "Int" => (integerWithin? (1 <<< 31) value).map fun number => int (Int32.ofInt number)
      | "UInt" => (naturalBelow? UInt32.size value).map fun number => uint (UInt32.ofNat number)
      | "Long" => (integerWithin? (1 <<< 63) value).map fun number => long (Int64.ofInt number)
      | "ULong" => (naturalBelow? UInt64.size value).map fun number => ulong (UInt64.ofNat number)
      | "Byte" => (naturalBelow? UInt8.size value).map fun number => byte (UInt8.ofNat number)
      | "Float" => value.floatBits?.map float
      | "Double" => value.doubleBits?.map double
      | "Bool" => value.bool?.map bool
      | "String" => value.string?.map string
      | "Char" => value.char?.map char
      | _ => none
  | _ => none

end Literal

end ModuleLang
