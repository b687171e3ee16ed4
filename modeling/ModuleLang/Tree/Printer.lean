import ModuleLang.Tree.Arena

/-!
One-line text of a tree. Expressions are written as a label with their operands
in parentheses, statements of a body stand between braces. With types shown,
every expression of a known type is followed by a colon and that type.
-/

namespace ModuleLang

namespace Printer

/-- A label with operands in parentheses. -/
def labelled (label : String) (operands : List String) : String :=
  label ++ "(" ++ ", ".intercalate operands ++ ")"

def bodyText (statements : List String) : String :=
  if statements.isEmpty then "\x7b\x7d"
  else "\x7b " ++ "; ".intercalate statements ++ " \x7d"

/-- Something that stands in front of a name, with a blank behind it. -/
def ahead (text : Option String) : String := (text.map (· ++ " ")).getD ""

/-- Text of a node without its type, from the texts of its children. -/
def plainText : NodeKind String → String
  | .root modules imports functions =>
      "Root[" ++ "; ".intercalate (modules ++ imports ++ functions) ++ "]"
  | .moduleDef path => labelled "Module" [path.text]
  | .useDef path => labelled "Use" [path.text]
  | .function result name parameters body =>
      "Fn(" ++ ahead result ++ labelled name parameters ++ " " ++ body ++ ")"
  | .parameter type name => type ++ " " ++ name
  | .body statements => bodyText statements
  | .condition predicate thenBody elseBody =>
      labelled "If" (predicate :: thenBody :: elseBody.toList)
  | .loop predicate body => labelled "While" [predicate, body]
  | .returnFrom none => "Return"
  | .returnFrom (some value) => labelled "Return" [value]
  | .breakLoop => "Break"
  | .continueLoop => "Continue"
  | .call name arguments => labelled "Call" (name :: arguments)
  | .construct type arguments => labelled "New" (type :: arguments)
  | .newArray element length => labelled "ArrayInit" [element, length]
  | .cast target inner _ => labelled "Cast" [target, inner]
  | .member name => name
  | .memberAccess owner name => labelled "MemberAccess" [owner, name]
  | .indexAccess target index => labelled "Index" [target, index]
  | .definition type name => "Def(" ++ ahead type ++ name ++ ")"
  | .assign .assign target value => labelled "Assign" [target, value]
  | .assign operator target value => labelled (operator.name ++ "Assign") [target, value]
  | .binary operator left right => labelled operator.name [left, right]
  | .unary operator operand => labelled operator.name [operand]
  | .literal value => value.text
  | .typeRef name ranks => name ++ String.join (ranks.map Ty.rankSuffix)

/-- Text of a node with its type behind it, if it is an expression of a known
type. -/
def typedText (kind : NodeKind String) (type : Option Ty) : String :=
  match type with
  | some type => if kind.isExpression then plainText kind ++ ": " ++ type.text else plainText kind
  | none => plainText kind

end Printer

namespace Arena

/-- Text of a tree. -/
def text? (arena : Arena) (root : NodeId) : Option String :=
  arena.fold? (fun _ kind _ => Printer.plainText kind) root

/-- Text of a tree with the types of its expressions. -/
def typedText? (arena : Arena) (root : NodeId) : Option String :=
  arena.fold? (fun _ kind type => Printer.typedText kind type) root

end Arena

end ModuleLang
