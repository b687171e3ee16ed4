import ModuleLang.Token.Operator

/-!
Operators as nodes carry them. A spelling becomes one of these by its place: in
front of an operand, behind it, between two operands, or in an assignment.
-/

namespace ModuleLang

/-- Groups of binary operators that share a typing rule. -/
inductive OperatorCategory
  | arithmetic
  | comparison
  | equality
  | logical
  | bitwise
deriving DecidableEq

def OperatorCategory.name : OperatorCategory → String
  | arithmetic => "Arithmetic"
  | comparison => "Comparison"
  | equality => "Equality"
  | logical => "Logical"
  | bitwise => "Bitwise"

inductive BinaryOperator
  | plus
  | minus
  | multiply
  | divide
  | modulo
  | less
  | lessOrEqual
  | greater
  | greaterOrEqual
  | equal
  | notEqual
  | and
  | or
  | bitwiseAnd
  | bitwiseOr
  | xor
deriving DecidableEq

namespace BinaryOperator

def all : List BinaryOperator :=
  [plus, minus, multiply, divide, modulo, less, lessOrEqual, greater, greaterOrEqual, equal,
    notEqual, and, or, bitwiseAnd, bitwiseOr, xor]

def category : BinaryOperator → OperatorCategory
  | plus | minus | multiply | divide | modulo => .arithmetic
  | less | lessOrEqual | greater | greaterOrEqual => .comparison
  | equal | notEqual => .equality
  | and | or => .logical
  | bitwiseAnd | bitwiseOr | xor => .bitwise

def symbol : BinaryOperator → String
  | plus => "+"
  | minus => "-"
  | multiply => "*"
  | divide => "/"
  | modulo => "%"
  | less => "<"
  | lessOrEqual => "<="
  | greater => ">"
  | greaterOrEqual => ">="
  | equal => "="
  | notEqual => "!="
  | and => "&&"
  | or => "||"
  | bitwiseAnd => "&"
  | bitwiseOr => "|"
  | xor => "^"

def name : BinaryOperator → String
  | plus => "Plus"
  | minus => "Minus"
  | multiply => "Multiply"
  | divide => "Divide"
  | modulo => "Modulo"
  | less => "Less"
  | lessOrEqual => "LessOrEqual"
  | greater => "Greater"
  | greaterOrEqual => "GreaterOrEqual"
  | equal => "Equal"
  | notEqual => "NotEqual"
  | and => "And"
  | or => "Or"
  | bitwiseAnd => "BitwiseAnd"
  | bitwiseOr => "BitwiseOr"
  | xor => "Xor"

/-- The operator that a spelling means between two operands. -/
def ofOperator? : Operator → Option BinaryOperator
  | .plus => some plus
  | .minus => some minus
  | .star => some multiply
  | .slash => some divide
  | .percent => some modulo
  | .less => some less
  | .lessEqual => some lessOrEqual
  | .greater => some greater
  | .greaterEqual => some greaterOrEqual
  | .equal => some equal
  | .notEqual => some notEqual
  | .andAnd => some and
  | .orOr => some or
  | .ampersand => some bitwiseAnd
  | .pipe => some bitwiseOr
  | .caret => some xor
  | _ => none

/-- Exactly the spellings with a binding power stand between two operands. -/
theorem isSome_ofOperator? (operator : Operator) :
    (ofOperator? operator).isSome = operator.bindingPower?.isSome := by
  cases operator <;> rfl

end BinaryOperator

inductive UnaryOperator
  | negate
  | not
  | leadingIncrement
  | leadingDecrement
  | trailingIncrement
  | trailingDecrement
deriving DecidableEq

namespace UnaryOperator

def all : List UnaryOperator :=
  [negate, not, leadingIncrement, leadingDecrement, trailingIncrement, trailingDecrement]

def symbol : UnaryOperator → String
  | negate => "-"
  | not => "!"
  | leadingIncrement | trailingIncrement => "++"
  | leadingDecrement | trailingDecrement => "--"

def name : UnaryOperator → String
  | negate => "Negate"
  | not => "Not"
  | leadingIncrement => "PrefixIncrement"
  | leadingDecrement => "PrefixDecrement"
  | trailingIncrement => "PostfixIncrement"
  | trailingDecrement => "PostfixDecrement"

/-- The operator that a spelling means in front of its operand. -/
def leading? : Operator → Option UnaryOperator
  | .minus => some negate
  | .bang => some not
  | .increment => some leadingIncrement
  | .decrement => some leadingDecrement
  | _ => none

/-- The operator that a spelling means behind its operand. -/
def trailing? : Operator → Option UnaryOperator
  | .increment => some trailingIncrement
  | .decrement => some trailingDecrement
  | _ => none

/-- Whether applying the operator is a statement by itself. -/
def isStep : UnaryOperator → Bool
  | negate | not => false
  | _ => true

end UnaryOperator

/-- Assignment and its compound forms. -/
inductive AssignOperator
  | assign
  | plus
  | minus
  | multiply
  | divide
  | modulo
  | bitwiseAnd
  | bitwiseOr
  | xor
deriving DecidableEq

namespace AssignOperator

def all : List AssignOperator :=
  [assign, plus, minus, multiply, divide, modulo, bitwiseAnd, bitwiseOr, xor]

/-- The binary operator that a compound assignment applies. -/
def binary? : AssignOperator → Option BinaryOperator
  | assign => none
  | plus => some .plus
  | minus => some .minus
  | multiply => some .multiply
  | divide => some .divide
  | modulo => some .modulo
  | bitwiseAnd => some .bitwiseAnd
  | bitwiseOr => some .bitwiseOr
  | xor => some .xor

def symbol : AssignOperator → String
  | assign => ":="
  | plus => "+="
  | minus => "-="
  | multiply => "*="
  | divide => "/="
  | modulo => "%="
  | bitwiseAnd => "&="
  | bitwiseOr => "|="
  | xor => "^="

def name : AssignOperator → String
  | assign => "Assign"
  | plus => "Plus"
  | minus => "Minus"
  | multiply => "Multiply"
  | divide => "Divide"
  | modulo => "Modulo"
  | bitwiseAnd => "BitwiseAnd"
  | bitwiseOr => "BitwiseOr"
  | xor => "Xor"

/-- The assignment that a spelling means. -/
def ofOperator? : Operator → Option AssignOperator
  | .assign => some assign
  | .plusAssign => some plus
  | .minusAssign => some minus
  | .starAssign => some multiply
  | .slashAssign => some divide
  | .percentAssign => some modulo
  | .andAssign => some bitwiseAnd
  | .orAssign => some bitwiseOr
  | .xorAssign => some xor
  | _ => none

theorem isSome_ofOperator? (operator : Operator) :
    (ofOperator? operator).isSome = operator.isAssignment := by
  cases operator <;> rfl

end AssignOperator

end ModuleLang
