/-!
Operators as they are spelt. `spellings` lists longer spellings before their own
beginnings, so the first spelling that a text begins with is the longest one.
`=` and `==` spell one operator, which is shown as `==`.
-/

namespace ModuleLang

inductive Operator
  | plus
  | minus
  | star
  | slash
  | percent
  | assign
  | plusAssign
  | minusAssign
  | starAssign
  | slashAssign
  | percentAssign
  | andAssign
  | orAssign
  | xorAssign
  | increment
  | decrement
  | andAnd
  | orOr
  | less
  | lessEqual
  | greater
  | greaterEqual
  | equal
  | notEqual
  | bang
  | ampersand
  | pipe
  | caret
deriving DecidableEq

namespace Operator

def spellings : List (String × Operator) :=
  [(":=", assign), ("+=", plusAssign), ("-=", minusAssign), ("*=", starAssign),
    ("/=", slashAssign), ("%=", percentAssign), ("&=", andAssign), ("|=", orAssign),
    ("^=", xorAssign), ("++", increment), ("--", decrement), ("&&", andAnd), ("||", orOr),
    ("<=", lessEqual), (">=", greaterEqual), ("!=", notEqual), ("==", equal), ("=", equal),
    ("+", plus), ("-", minus), ("*", star), ("/", slash), ("%", percent), ("<", less),
    (">", greater), ("!", bang), ("&", ampersand), ("|", pipe), ("^", caret)]

/-- The longest spelling that begins a text, with the number of its characters. -/
def leading? (text : List Char) : Option (Nat × Operator) :=
  (spellings.find? fun entry => entry.1.toList.isPrefixOf text).map fun entry =>
    (entry.1.length, entry.2)

/-- First spelling of an operator. -/
def spelling (operator : Operator) : String :=
  ((spellings.find? fun entry => entry.2 == operator).map Prod.fst).getD "?"

/-- The operator that a word spells as a whole. -/
def ofSpelling? (word : String) : Option Operator := spellings.lookup word

/-- How tightly an operator between two operands binds; higher is tighter. -/
def bindingPower? : Operator → Option Nat
  | orOr => some 1
  | andAnd => some 2
  | pipe => some 3
  | caret => some 4
  | ampersand => some 5
  | equal | notEqual => some 6
  | less | lessEqual | greater | greaterEqual => some 7
  | plus | minus => some 8
  | star | slash | percent => some 9
  | _ => none

/-- Binding power of an operator in front of its operand, above that of every
operator between two. -/
def leadingPower : Nat := 10

theorem bindingPower_lt_leadingPower {operator : Operator} {power : Nat}
    (found : operator.bindingPower? = some power) : power < leadingPower := by
  cases operator <;> simp only [bindingPower?, Option.some.injEq, reduceCtorEq] at found <;>
    subst found <;> decide

def isAssignment : Operator → Bool
  | assign | plusAssign | minusAssign | starAssign | slashAssign | percentAssign
  | andAssign | orAssign | xorAssign => true
  | _ => false

def name : Operator → String
  | plus => "Plus"
  | minus => "Minus"
  | star => "Star"
  | slash => "Slash"
  | percent => "Percent"
  | assign => "Assign"
  | plusAssign => "PlusAssign"
  | minusAssign => "MinusAssign"
  | starAssign => "StarAssign"
  | slashAssign => "SlashAssign"
  | percentAssign => "PercentAssign"
  | andAssign => "AndAssign"
  | orAssign => "OrAssign"
  | xorAssign => "XorAssign"
  | increment => "Increment"
  | decrement => "Decrement"
  | andAnd => "AndAnd"
  | orOr => "OrOr"
  | less => "Less"
  | lessEqual => "LessEqual"
  | greater => "Greater"
  | greaterEqual => "GreaterEqual"
  | equal => "Equal"
  | notEqual => "NotEqual"
  | bang => "Bang"
  | ampersand => "Ampersand"
  | pipe => "Pipe"
  | caret => "Caret"

end Operator

end ModuleLang
