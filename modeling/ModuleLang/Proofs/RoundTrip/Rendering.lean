import ModuleLang.Proofs.Tree.SyntaxTree
import ModuleLang.Token.Lexeme

/-!
Trees that a text can spell, and the text that spells them. A name is a word, a
type has ranks that can be written, and a literal is a non-negative integer, a
truth value, `null`, or made of characters that quotes can hold. The text has one
space between two tokens, a semicolon behind every statement, and parentheses
around an operand only where it would be read as something else without them.
-/

namespace ModuleLang

open ModuleLang.Text

/-- A word that is neither reserved nor a literal. -/
def isName (name : String) : Bool :=
  name.toList.head?.any Lexeme.isWordStart && name.toList.all Lexeme.isWordPart &&
    Lexeme.wordMeaning name == .word name

section Names

variable {name : String} (named : isName name = true)

include named

theorem name_parts : name.toList.all Lexeme.isWordPart = true := by
  simp only [isName, Bool.and_eq_true] at named
  exact named.1.2

theorem name_starts : name.toList.head?.any Lexeme.isWordStart = true := by
  simp only [isName, Bool.and_eq_true] at named
  exact named.1.1

theorem name_means : Lexeme.wordMeaning name = .word name := by
  simp only [isName, Bool.and_eq_true, beq_iff_eq] at named
  exact named.2

theorem name_letters : ∃ first body, name.toList = first :: body ∧
    Lexeme.isWordStart first = true ∧ (first :: body).all Lexeme.isWordPart = true := by
  have starts := name_starts named
  have parts := name_parts named
  cases text : name.toList with
  | nil =>
      rw [text] at starts
      cases starts
  | cons first body =>
      rw [text] at starts parts
      exact ⟨first, body, rfl, starts, parts⟩

end Names

/-- A character that can stand between quotes, behind a backslash if need be. -/
def Text.isQuotable (character : Char) : Bool :=
  (0x20 ≤ character.toNat && character.toNat < 0x7f) || (escapeLetter? character).isSome

/-- A literal that can be spelled exactly. -/
def Literal.isWritable : Literal → Bool
  | .int value => 0 ≤ value.toInt
  | .long value => 0 ≤ value.toInt
  | .uint _ | .ulong _ | .byte _ | .bool _ | .null => true
  | .string value => value.toList.all isQuotable
  | .char value => isQuotable value
  | .float _ | .double _ => false

def ModulePath.isWritable (path : ModulePath) : Bool :=
  !path.segments.isEmpty && path.segments.all isName

namespace BinaryOperator

/-- How an operator between two operands is spelled. -/
def spelt : BinaryOperator → Operator
  | plus => .plus
  | minus => .minus
  | multiply => .star
  | divide => .slash
  | modulo => .percent
  | less => .less
  | lessOrEqual => .lessEqual
  | greater => .greater
  | greaterOrEqual => .greaterEqual
  | equal => .equal
  | notEqual => .notEqual
  | and => .andAnd
  | or => .orOr
  | bitwiseAnd => .ampersand
  | bitwiseOr => .pipe
  | xor => .caret

theorem of_operator_spelt (operator : BinaryOperator) : ofOperator? operator.spelt = some operator := by
  cases operator <;> rfl

/-- How tightly an operator binds. -/
def power (operator : BinaryOperator) : Nat := operator.spelt.bindingPower?.getD 0

theorem binding_power_spelt (operator : BinaryOperator) :
    operator.spelt.bindingPower? = some operator.power := by
  cases operator <;> rfl

theorem power_le (operator : BinaryOperator) : operator.power < Operator.leadingPower :=
  Operator.bindingPower_lt_leadingPower operator.binding_power_spelt

end BinaryOperator

namespace UnaryOperator

def spelt : UnaryOperator → Operator
  | negate => .minus
  | not => .bang
  | leadingIncrement | trailingIncrement => .increment
  | leadingDecrement | trailingDecrement => .decrement

/-- Whether an operator stands in front of its operand. -/
def isLeading : UnaryOperator → Bool
  | trailingIncrement | trailingDecrement => false
  | _ => true

theorem leading_spelt {operator : UnaryOperator} (leading : operator.isLeading = true) :
    leading? operator.spelt = some operator := by
  cases operator <;> first | rfl | cases leading

theorem trailing_spelt {operator : UnaryOperator} (behind : operator.isLeading = false) :
    trailing? operator.spelt = some operator := by
  cases operator <;> first | rfl | cases behind

end UnaryOperator

namespace AssignOperator

def spelt : AssignOperator → Operator
  | assign => .assign
  | plus => .plusAssign
  | minus => .minusAssign
  | multiply => .starAssign
  | divide => .slashAssign
  | modulo => .percentAssign
  | bitwiseAnd => .andAssign
  | bitwiseOr => .orAssign
  | xor => .xorAssign

theorem of_operator_spelt (operator : AssignOperator) : ofOperator? operator.spelt = some operator := by
  cases operator <;> rfl

end AssignOperator

namespace SyntaxTree

def kind : SyntaxTree → NodeKind SyntaxTree
  | .node kind => kind

/-- A name and array suffixes whose ranks can be written. -/
inductive IsType : SyntaxTree → Prop
  | intro {name : String} {ranks : List Nat} (named : isName name = true)
      (written : ∀ rank ∈ ranks, 1 ≤ rank ∧ rank ≤ 255) : IsType (.node (.typeRef name ranks))

/-- Trees of expressions. -/
inductive IsExpression : SyntaxTree → Prop
  | literal {value : Literal} (writable : value.isWritable = true) :
      IsExpression (.node (.literal value))
  | member {name : String} (named : isName name = true) : IsExpression (.node (.member name))
  | call {name : String} {arguments : List SyntaxTree} (named : isName name = true)
      (each : ∀ argument ∈ arguments, IsExpression argument) :
      IsExpression (.node (.call name arguments))
  | construct {name : String} {arguments : List SyntaxTree} (named : isName name = true)
      (each : ∀ argument ∈ arguments, IsExpression argument) :
      IsExpression (.node (.construct (.node (.typeRef name [])) arguments))
  | newArray {name : String} {length : SyntaxTree} (named : isName name = true)
      (inside : IsExpression length) :
      IsExpression (.node (.newArray (.node (.typeRef name [])) length))
  | cast {target inner : SyntaxTree} (typed : IsType target) (operand : IsExpression inner) :
      IsExpression (.node (.cast target inner none))
  | memberAccess {owner : SyntaxTree} {name : String} (operand : IsExpression owner)
      (named : isName name = true) : IsExpression (.node (.memberAccess owner name))
  | indexAccess {target index : SyntaxTree} (operand : IsExpression target)
      (inside : IsExpression index) : IsExpression (.node (.indexAccess target index))
  | binary {operator : BinaryOperator} {left right : SyntaxTree} (first : IsExpression left)
      (second : IsExpression right) : IsExpression (.node (.binary operator left right))
  | unary {operator : UnaryOperator} {operand : SyntaxTree} (only : IsExpression operand) :
      IsExpression (.node (.unary operator operand))

/-- Trees of statements. A body is a block of statements. -/
inductive IsStatement : SyntaxTree → Prop
  | definition {type : SyntaxTree} {name : String} (typed : IsType type)
      (named : isName name = true) : IsStatement (.node (.definition (some type) name))
  | define {type value : SyntaxTree} {name : String} (typed : IsType type)
      (named : isName name = true) (given : IsExpression value) :
      IsStatement (.node (.assign .assign (.node (.definition (some type) name)) value))
  | assign {operator : AssignOperator} {target value : SyntaxTree} (left : IsExpression target)
      (assignable : target.kind.isPlace = true) (given : IsExpression value) :
      IsStatement (.node (.assign operator target value))
  | evaluate {expression : SyntaxTree} (formed : IsExpression expression)
      (alone : expression.kind.isStatement = true) : IsStatement expression
  | returnFrom {value : Option SyntaxTree} (given : ∀ result ∈ value, IsExpression result) :
      IsStatement (.node (.returnFrom value))
  | breakLoop : IsStatement (.node .breakLoop)
  | continueLoop : IsStatement (.node .continueLoop)
  | block {statements : List SyntaxTree} (each : ∀ statement ∈ statements, IsStatement statement) :
      IsStatement (.node (.body statements))
  | condition {predicate : SyntaxTree} {first : List SyntaxTree}
      {second : Option (List SyntaxTree)} (decides : IsExpression predicate)
      (each : ∀ statement ∈ first, IsStatement statement)
      (other : ∀ statements ∈ second, ∀ statement ∈ statements, IsStatement statement) :
      IsStatement (.node (.condition predicate (.node (.body first))
        (second.map fun statements => .node (.body statements))))
  | loop {predicate : SyntaxTree} {statements : List SyntaxTree} (decides : IsExpression predicate)
      (each : ∀ statement ∈ statements, IsStatement statement) :
      IsStatement (.node (.loop predicate (.node (.body statements))))

inductive IsParameter : SyntaxTree → Prop
  | intro {type : SyntaxTree} {name : String} (typed : IsType type) (named : isName name = true) :
      IsParameter (.node (.parameter type name))

/-- Trees of functions. One without a result type is not named like a built-in
type. -/
inductive IsFunction : SyntaxTree → Prop
  | intro {result : Option SyntaxTree} {name : String} {parameters statements : List SyntaxTree}
      (typed : ∀ type ∈ result, IsType type) (named : isName name = true)
      (apart : result = none → Ty.builtin? name = none)
      (each : ∀ parameter ∈ parameters, IsParameter parameter)
      (formed : ∀ statement ∈ statements, IsStatement statement) :
      IsFunction (.node (.function result name parameters (.node (.body statements))))

/-- Trees of whole modules. -/
inductive IsModule : SyntaxTree → Prop
  | intro {modules imports functions : List SyntaxTree}
      (named : ∀ item ∈ modules, ∃ path : ModulePath, path.isWritable = true ∧
        item = .node (.moduleDef path))
      (used : ∀ item ∈ imports, ∃ path : ModulePath, path.isWritable = true ∧
        item = .node (.useDef path))
      (each : ∀ item ∈ functions, IsFunction item) : IsModule (.node (.root modules imports functions))

/-- How tightly the parts of an expression hold together. Nothing is tighter than
what is written behind an operand. -/
def power : SyntaxTree → Nat
  | .node (.binary operator _ _) => operator.power
  | .node (.unary operator _) =>
      if operator.isLeading then Operator.leadingPower + 1 else Operator.leadingPower + 2
  | .node (.cast ..) => Operator.leadingPower + 1
  | _ => Operator.leadingPower + 2

/-- Whether a type is built in, or an array of such. -/
def isBuiltin : SyntaxTree → Bool
  | .node (.typeRef name _) => (Ty.builtin? name).isSome
  | _ => false

end SyntaxTree

namespace TokenKind

/-- Tokens of a list whose members stand between commas. -/
def separated (members : List (List TokenKind)) : List TokenKind :=
  [punctuation .comma].intercalate members

def inParentheses (tokens : List TokenKind) : List TokenKind :=
  punctuation .openParen :: tokens ++ [punctuation .closeParen]

def inBrackets (tokens : List TokenKind) : List TokenKind :=
  punctuation .openBracket :: tokens ++ [punctuation .closeBracket]

def ofPath (path : ModulePath) : List TokenKind :=
  [punctuation .dot].intercalate (path.segments.map fun segment => [word segment])

/-- An operand, in parentheses where something tighter is needed. -/
def operand (least : Nat) (tree : SyntaxTree) (tokens : List TokenKind) : List TokenKind :=
  if tree.power < least then inParentheses tokens else tokens

/-- A token that a type in parentheses must not stand in front of, if the two are to
be a cast to a type that is not built in. -/
def hidesCast : TokenKind → Bool
  | operator _ | keyword .newWord => true
  | _ => false

/-- The operand of a cast. -/
def castOperand (target inner : SyntaxTree) (tokens : List TokenKind) : List TokenKind :=
  if inner.power < Operator.leadingPower + 1 ||
      (!target.isBuiltin && tokens.head?.any hidesCast) then
    inParentheses tokens
  else tokens

end TokenKind

namespace SyntaxTree

open TokenKind (separated inParentheses inBrackets ofPath castOperand)

/-- The tokens that spell a tree. -/
def tokens : SyntaxTree → List TokenKind
  | .node (.root modules imports functions) =>
      modules.flatMap tokens ++ imports.flatMap tokens ++ functions.flatMap tokens
  | .node (.moduleDef path) => .keyword .moduleWord :: ofPath path ++ [.endOfStatement]
  | .node (.useDef path) => .keyword .useWord :: ofPath path ++ [.endOfStatement]
  | .node (.function result name parameters block) =>
      .keyword .fnWord :: (match result with | some type => tokens type | none => []) ++ .word name ::
        inParentheses (separated (parameters.map tokens)) ++ tokens block
  | .node (.parameter type name) => tokens type ++ [.word name]
  | .node (.body statements) =>
      .punctuation .openBrace ::
        (statements.flatMap fun statement => tokens statement ++ [.endOfStatement]) ++
        [.punctuation .closeBrace]
  | .node (.condition predicate thenBody elseBody) =>
      .keyword .ifWord :: inParentheses (tokens predicate) ++ tokens thenBody ++
        match elseBody with | some body => .keyword .elseWord :: tokens body | none => []
  | .node (.loop predicate block) =>
      .keyword .whileWord :: inParentheses (tokens predicate) ++ tokens block
  | .node (.returnFrom value) => .keyword .returnWord :: match value with | some result => tokens result | none => []
  | .node .breakLoop => [.keyword .breakWord]
  | .node .continueLoop => [.keyword .continueWord]
  | .node (.call name arguments) => .word name :: inParentheses (separated (arguments.map tokens))
  | .node (.construct type arguments) =>
      .keyword .newWord :: tokens type ++ inParentheses (separated (arguments.map tokens))
  | .node (.newArray element length) =>
      .keyword .newWord :: tokens element ++ inBrackets (tokens length)
  | .node (.cast target inner _) =>
      inParentheses (tokens target) ++ castOperand target inner (tokens inner)
  | .node (.member name) => [.word name]
  | .node (.memberAccess owner name) =>
      TokenKind.operand (Operator.leadingPower + 2) owner (tokens owner) ++
        [.punctuation .dot, .word name]
  | .node (.indexAccess target index) =>
      TokenKind.operand (Operator.leadingPower + 2) target (tokens target) ++ inBrackets (tokens index)
  | .node (.definition type name) => (match type with | some type => tokens type | none => []) ++ [.word name]
  | .node (.assign operator target value) =>
      tokens target ++ .operator operator.spelt :: tokens value
  | .node (.binary operator left right) =>
      TokenKind.operand operator.power left (tokens left) ++ .operator operator.spelt ::
        TokenKind.operand (operator.power + 1) right (tokens right)
  | .node (.unary operator inner) =>
      if operator.isLeading then
        .operator operator.spelt :: TokenKind.operand (Operator.leadingPower + 1) inner (tokens inner)
      else TokenKind.operand (Operator.leadingPower + 2) inner (tokens inner) ++ [.operator operator.spelt]
  | .node (.literal value) => [.literal value]
  | .node (.typeRef name ranks) =>
      .word name :: ranks.flatMap fun rank => inBrackets (List.replicate (rank - 1) (.punctuation .comma))

/-- The text that spells a tree. -/
def render (tree : SyntaxTree) : String := " ".intercalate (tree.tokens.map TokenKind.text)

end SyntaxTree

end ModuleLang
