import ModuleLang.Typing.Inference.Basic
import ModuleLang.Typing.Operands

/-!
Types of expressions. Operands are looked at before the operator, from left to
right, and a type that could not be found out is unknown. The rules take the
inference of subexpressions as a parameter; `expression` ties them together,
each level with one unit of budget less. No path of an arena without cycles is
longer than the arena, and a cast that was added on a path replaces a slot of an
older node, so twice the size of the arena is budget enough.
-/

namespace ModuleLang.Inference

section Rules

variable (environment : Environment) (infer : NodeId → Inference (Option Ty))

/-- The name of a variable. -/
def variableType (node : NodeId) (name : String) : Inference (Option Ty) := do
  match (← scopes).lookup name with
  | some binding => return binding.type
  | none =>
      report environment node (.cannotFindMember name)
      return none

/-- The member that all strings and arrays have. -/
def lengthMember? (owner : Ty) (name : String) : Option Ty :=
  match owner with
  | .string | .array .. => if name = "length" then some .int else none
  | _ => none

def memberAccess (node owner : NodeId) (name : String) : Inference (Option Ty) := do
  let some ownerType ← infer owner | return none
  match lengthMember? ownerType name <|> environment.host.member? ownerType name with
  | some type => return some type
  | none =>
      report environment node (.cannotFindMember name)
      return none

/-- An index or a length must be an `int`, or widen to one. -/
def checkIndex (parent index : NodeId) (type : Option Ty) : Inference Unit :=
  match type with
  | none => return
  | some type =>
      if type = .int then return
      else if type.widensTo .int then insertCast parent index .int
      else report environment index .indexMustBeInteger

def indexAccess (node target index : NodeId) : Inference (Option Ty) := do
  let targetType ← infer target
  let indexType ← infer index
  checkIndex environment node index indexType
  match targetType with
  | none => return none
  | some (.array element 1) => return some element
  | some (.array _ _) =>
      report environment node .multiDimensionalIndexer
      return none
  | some other =>
      report environment target (.indexerNotApplicable other.text)
      return none

/-- Widens one of two operands to the type of the other. -/
def unify (node : NodeId) (operator : BinaryOperator) (left right : NodeId)
    (leftType rightType : Ty) : Inference (Option Ty) := do
  match promote leftType rightType with
  | .same => return some leftType
  | .castLeft type =>
      insertCast node left type
      return some type
  | .castRight type =>
      insertCast node right type
      return some type
  | .incompatible =>
      report environment node (.cannotApplyOperator operator.symbol)
      return none

/-- The common type of two operands, if they have one. -/
def commonType (node : NodeId) (operator : BinaryOperator) (left right : NodeId)
    (leftType rightType : Option Ty) : Inference (Option Ty) := do
  match operator.category.operandTypes? leftType rightType with
  | none => return none
  | some (leftType, rightType) =>
      match operator.category.operandFit leftType rightType with
      | .fit => return some leftType
      | .unify => unify environment node operator left right leftType rightType
      | .reject =>
          report environment node (.cannotApplyOperator operator.symbol)
          return none

def binary (node : NodeId) (operator : BinaryOperator) (left right : NodeId) :
    Inference (Option Ty) := do
  let leftType ← infer left
  let rightType ← infer right
  let common ← commonType environment node operator left right leftType rightType
  return if operator.category.isPredicate then some .bool else common

def unary (node : NodeId) (operator : UnaryOperator) (operand : NodeId) :
    Inference (Option Ty) := do
  match ← infer operand with
  | none => return if operator = .not then some .bool else none
  | some type =>
      let (result, taken) := operator.result type
      if !taken then report environment node (.cannotApplyOperator operator.symbol)
      return result

/-- Functions that a call may mean: those of the module, else the intrinsic one,
else those of the host. -/
def candidates (environment : Environment) (name : String) : List Signature :=
  match Signature.named name environment.functions with
  | [] =>
      match Signature.intrinsic? name with
      | some signature => [signature]
      | none => environment.host.functionsNamed name
  | signatures => signatures

/-- The first function that accepts the arguments gives the type. A call that
none accepts is not reported if only its arguments are at fault: some function
takes as many, and an argument was reported or is of unknown type. -/
def call (node : NodeId) (name : String) (arguments : List NodeId) :
    Inference (Option Ty) := do
  let before := (← get).diagnostics.length
  let types ← arguments.mapM infer
  let reported := before < (← get).diagnostics.length
  let functions := candidates environment name
  match functions.find? fun signature => signature.accepts types with
  | some signature => return signature.result
  | none =>
      let counted := functions.any fun signature =>
        signature.parameters.length == arguments.length
      if !(counted && (reported || types.any Option.isNone)) then
        report environment node (.unknownFunction name)
      return none

def newArray (node element length : NodeId) : Inference (Option Ty) := do
  let elementType ← resolveType environment element
  let lengthType ← infer length
  checkIndex environment node length lengthType
  return elementType.map fun type => .array type 1

/-- Notes the type that a cast starts from. -/
def setCastSource (node : NodeId) (source : Option Ty) : Inference Unit := do
  match ← kind? node with
  | some (.cast target inner _) => onTree (SourceTree.setKind node (.cast target inner source))
  | _ => return

def cast (node target inner : NodeId) : Inference (Option Ty) := do
  let targetType ← resolveType environment target
  let source ← infer inner
  setCastSource node source
  if let some source := source then
    if let some type := targetType then
      if !source.castsTo type then report environment node (.cannotCast source.text type.text)
  return targetType

/-- The type of one expression. -/
def anyExpression (node : NodeId) : Inference (Option Ty) := do
  match ← kind? node with
  | some (.literal value) => return some value.type
  | some (.member name) => variableType environment node name
  | some (.memberAccess owner name) => memberAccess environment infer node owner name
  | some (.indexAccess target index) => indexAccess environment infer node target index
  | some (.binary operator left right) => binary environment infer node operator left right
  | some (.unary operator operand) => unary environment infer node operator operand
  | some (.call name arguments) => call environment infer node name arguments
  | some (.construct type arguments) =>
      let constructed ← resolveType environment type
      arguments.forM fun argument => do let _ ← infer argument
      return constructed
  | some (.newArray element length) => newArray environment infer node element length
  | some (.cast target inner _) => cast environment infer node target inner
  | _ => throw (.unexpectedNode node "expression")

end Rules

variable (environment : Environment)

def expressionWithin : (budget : Nat) → NodeId → Inference (Option Ty)
  | 0, _ => throw .exhausted
  | budget + 1, node => do
      let type ← anyExpression environment (expressionWithin budget) node
      setType node type
      return type

/-- Finds the type of an expression and stores it on the node. -/
def expression (node : NodeId) : Inference (Option Ty) := do
  expressionWithin environment (2 * (← get).tree.arena.size + 2) node

end ModuleLang.Inference
