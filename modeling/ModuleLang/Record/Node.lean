import ModuleLang.Record.Value
import ModuleLang.Tree.Node

/-!
Records of nodes and their readers. A node refers to others by their numbers. A
kind without any part is its name alone, and a part that a node lacks is `null`.
-/

namespace ModuleLang

namespace NodeId

def record (node : NodeId) : Json := .nat node.index

def ofRecord? (value : Json) : Option NodeId := value.nat?.map mk

end NodeId

namespace ModulePath

def record (path : ModulePath) : Json :=
  .record [("segments", .array (path.segments.map Json.string))]

def ofRecord? (value : Json) : Option ModulePath :=
  (value.field? (Json.list? Json.string?) "segments").map mk

end ModulePath

namespace NodeKind

def nodesRecord (nodes : List NodeId) : Json := .array (nodes.map NodeId.record)

def optionalRecord (node : Option NodeId) : Json := .ofOption (node.map NodeId.record)

/-- The parts of a node under their names. -/
def parts : NodeKind NodeId → List (String × Json)
  | root modules imports functions =>
      [("modules", nodesRecord modules), ("imports", nodesRecord imports),
        ("functions", nodesRecord functions)]
  | moduleDef path | useDef path => [("path", path.record)]
  | function result name parameters block =>
      [("return_type", optionalRecord result), ("name", .string name),
        ("params", nodesRecord parameters), ("body", block.record)]
  | parameter type name => [("ty", type.record), ("name", .string name)]
  | body statements => [("statements", nodesRecord statements)]
  | condition predicate thenBody elseBody =>
      [("predicate", predicate.record), ("if_clause", thenBody.record),
        ("else_clause", optionalRecord elseBody)]
  | loop predicate block => [("predicate", predicate.record), ("body", block.record)]
  | returnFrom value => [("value", optionalRecord value)]
  | breakLoop | continueLoop => []
  | call name arguments => [("name", .string name), ("args", nodesRecord arguments)]
  | construct type arguments => [("ty", type.record), ("args", nodesRecord arguments)]
  | newArray element length => [("element_ty", element.record), ("length", length.record)]
  | cast target inner source =>
      [("to", target.record), ("inner", inner.record), ("from", .ofOption (source.map Ty.record))]
  | member name => [("name", .string name)]
  | memberAccess owner name => [("from", owner.record), ("member", .string name)]
  | indexAccess target index => [("target", target.record), ("index", index.record)]
  | definition type name => [("ty", optionalRecord type), ("name", .string name)]
  | assign operator target value =>
      [("op", .string operator.name), ("target", target.record), ("value", value.record)]
  | binary operator left right =>
      [("op", .string operator.name), ("left", left.record), ("right", right.record)]
  | unary operator operand => [("op", .string operator.name), ("operand", operand.record)]
  | literal value => [("value", value.record)]
  | typeRef name ranks => [("name", .string name), ("dims", .array (ranks.map Json.nat))]

def record (kind : NodeKind NodeId) : Json :=
  if kind.parts.isEmpty then .string kind.label
  else .record [(kind.label, .record kind.parts)]

def binaryOperator? (value : Json) : Option BinaryOperator := do
  let name ← value.string?
  BinaryOperator.all.find? fun operator => operator.name == name

def unaryOperator? (value : Json) : Option UnaryOperator := do
  let name ← value.string?
  UnaryOperator.all.find? fun operator => operator.name == name

def assignOperator? (value : Json) : Option AssignOperator := do
  let name ← value.string?
  AssignOperator.all.find? fun operator => operator.name == name

/-- The kind with a label and the parts of a record. -/
def ofParts? (label : String) (parts : Json) : Option (NodeKind NodeId) := do
  let node (name : String) := parts.field? NodeId.ofRecord? name
  let nodes (name : String) := parts.field? (Json.list? NodeId.ofRecord?) name
  let perhaps (name : String) := parts.optionalField? NodeId.ofRecord? name
  let text (name : String) := parts.field? Json.string? name
  match label with
  | "Root" => return root (← nodes "modules") (← nodes "imports") (← nodes "functions")
  | "ModuleDef" => return moduleDef (← parts.field? ModulePath.ofRecord? "path")
  | "Import" => return useDef (← parts.field? ModulePath.ofRecord? "path")
  | "FuncDef" =>
      return function (← perhaps "return_type") (← text "name") (← nodes "params") (← node "body")
  | "Parameter" => return parameter (← node "ty") (← text "name")
  | "Body" => return body (← nodes "statements")
  | "Condition" =>
      return condition (← node "predicate") (← node "if_clause") (← perhaps "else_clause")
  | "While" => return loop (← node "predicate") (← node "body")
  | "Return" => return returnFrom (← perhaps "value")
  | "Call" => return call (← text "name") (← nodes "args")
  | "ConstructorCall" => return construct (← node "ty") (← nodes "args")
  | "ArrayInit" => return newArray (← node "element_ty") (← node "length")
  | "Cast" => return cast (← node "to") (← node "inner") (← parts.optionalField? Ty.ofRecord? "from")
  | "Member" => return member (← text "name")
  | "MemberAccess" => return memberAccess (← node "from") (← text "member")
  | "IndexAccess" => return indexAccess (← node "target") (← node "index")
  | "VariableDefinition" => return definition (← perhaps "ty") (← text "name")
  | "Assign" =>
      return assign (← parts.field? assignOperator? "op") (← node "target") (← node "value")
  | "Binary" =>
      return binary (← parts.field? binaryOperator? "op") (← node "left") (← node "right")
  | "Unary" => return unary (← parts.field? unaryOperator? "op") (← node "operand")
  | "Literal" => return literal (← parts.field? Literal.ofRecord? "value")
  | "TypeRef" =>
      return typeRef (← text "name") (← parts.field? (Json.list? Ty.rankOfRecord?) "dims")
  | _ => none

def ofRecord? : Json → Option (NodeKind NodeId)
  | .string "Break" => some breakLoop
  | .string "Continue" => some continueLoop
  | .object [(label, parts)] => ofParts? label parts
  | _ => none

end NodeKind

end ModuleLang
