import ModuleLang.Ty

/-!
Conversions between types. Widening is the only conversion that checking inserts
by itself: a numeric type widens to the types that represent all of its values,
and every integer type to the floating ones. Whatever else is wanted needs an
explicit cast, which is allowed between numbers, between characters and
integers, from `null` to types that may be `null`, and from and to types that
the language does not look into.
-/

namespace ModuleLang

namespace Ty

/-- The types that values of a type widen to. -/
def wider : Ty → List Ty
  | byte => [int, uint, long, ulong, float, double]
  | int => [long, float, double]
  | uint => [long, ulong, float, double]
  | long => [float, double]
  | ulong => [float, double]
  | float => [double]
  | _ => []

/-- Whether values of the first type widen to the second. -/
def widensTo (source target : Ty) : Bool := source.wider.contains target

theorem widensTo_self (type : Ty) : type.widensTo type = false := by
  cases type <;> rfl

/-- Types that the language does not look into. -/
def isOpaque : Ty → Bool
  | any | named _ => true
  | _ => false

def isCharOrInteger (type : Ty) : Bool := type == char || type.isInteger

/-- Whether an explicit cast from the first type to the second is allowed. -/
def castsTo (source target : Ty) : Bool :=
  source == target || source.isOpaque || target.isOpaque ||
    (source.isNumeric && target.isNumeric) ||
    (source.isCharOrInteger && target.isCharOrInteger) ||
    (source == null && target.isNullable)

end Ty

/-- How two numeric operands come to one type. -/
inductive Promotion
  | same
  /-- The left operand is cast to the type. -/
  | castLeft (type : Ty)
  /-- The right operand is cast to the type. -/
  | castRight (type : Ty)
  | incompatible
deriving DecidableEq

def promote (left right : Ty) : Promotion :=
  if left = right then .same
  else if left.widensTo right then .castLeft right
  else if right.widensTo left then .castRight left
  else .incompatible

/-- How a value fits a slot. -/
inductive Assignability
  | exact
  | widen
  | no
deriving DecidableEq

/-- An array of `any` fits every array of its rank. -/
def isUntypedArrayFor : (value slot : Ty) → Bool
  | .array element rank, .array _ slotRank => element == .any && rank == slotRank
  | _, _ => false

def assignability (value slot : Ty) : Assignability :=
  if value = slot ∨ slot = .any then .exact
  else if value = .null ∧ slot.isNullable then .exact
  else if isUntypedArrayFor value slot then .exact
  else if value.widensTo slot then .widen
  else .no

end ModuleLang
