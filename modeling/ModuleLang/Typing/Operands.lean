import ModuleLang.Tree.Operators
import ModuleLang.Typing.Widening

/-!
Operand rules of operators. The rule of a binary operator depends on its
category alone, and it speaks about known types: an operand whose type could not
be found out is held against nobody, so one mistake is reported once and not
again at every node above it. Compound assignments follow the rule of the
operator that they apply.
-/

namespace ModuleLang

/-- How two operands of known types fit an operator. -/
inductive OperandFit
  | fit
  /-- They fit once they have come to one type. -/
  | unify
  | reject
deriving DecidableEq

namespace OperatorCategory

/-- Whether one of two types is that of `null` and the other has it. -/
def comparesNull (left right : Ty) : Bool :=
  (left == .null && right.isNullable) || (right == .null && left.isNullable)

def operandFit (left right : Ty) : OperatorCategory → OperandFit
  | arithmetic | comparison => if left.isNumeric && right.isNumeric then .unify else .reject
  | equality =>
      if left = .void ∨ right = .void then .reject
      else if left.isNumeric && right.isNumeric then .unify
      else if left = right ∨ comparesNull left right then .fit
      else .reject
  | logical => if left = .bool ∧ right = .bool then .fit else .reject
  | bitwise =>
      if left = .bool ∧ right = .bool then .fit
      else if left.isInteger && right.isInteger then .unify
      else .reject

/-- Types that a rule is applied to. Rules need both of them, except that a
logical operator takes an unknown operand for a `bool`. -/
def operandTypes? (left right : Option Ty) : OperatorCategory → Option (Ty × Ty)
  | logical => some (left.getD .bool, right.getD .bool)
  | _ => left.bind fun left => right.map fun right => (left, right)

/-- Whether the result is a `bool` whatever the operands are. -/
def isPredicate : OperatorCategory → Bool
  | comparison | equality | logical => true
  | arithmetic | bitwise => false

end OperatorCategory

namespace AssignOperator

/-- Whether the operator that an assignment applies takes the stored and the
assigned value. -/
def takes (target value : Ty) (operator : AssignOperator) : Bool :=
  match operator.binary? with
  | none => true
  | some binary => binary.category.operandFit target value != .reject

/-- Only arithmetic and bitwise operators are combined with assignment. -/
theorem not_isPredicate_of_binary? {operator : AssignOperator} {binary : BinaryOperator}
    (found : operator.binary? = some binary) : binary.category.isPredicate = false := by
  cases operator <;> simp only [binary?, Option.some.injEq, reduceCtorEq] at found <;>
    subst found <;> rfl

end AssignOperator

namespace UnaryOperator

/-- Result of an operator with an operand of a known type, and whether it takes
that operand. -/
def result (operand : Ty) : UnaryOperator → Option Ty × Bool
  | not => (some .bool, operand == .bool)
  | _ => if operand.isNumeric then (some operand, true) else (none, false)

end UnaryOperator

end ModuleLang
