import ModuleLang.Token
import ModuleLang.Typing.Inference.Expression

/-!
Statements. Checking a statement completes it where the text leaves something
open: a variable that is defined without a value is assigned its default, and
the first assignment to an unknown name becomes a definition. A statement is
replaced by the node that checking returns for it.
-/

namespace ModuleLang.Inference

section Rules

variable (environment : Environment)

def predicate (node : NodeId) : Inference Unit := do
  match ← expression environment node with
  | none => return
  | some type => if type ≠ .bool then report environment node .predicateMustBeBool

/-- `break` and `continue` need a loop around them. -/
def jump (node : NodeId) (keyword : Keyword) : Inference Unit := do
  if (← get).loopDepth = 0 then report environment node (.jumpOutsideLoop keyword.text)

/-- Checks a returned value of a known type against a result type that is not
`void`. -/
def returnValue (node value : NodeId) (found expected : Ty) : Inference Unit :=
  match assignability found expected with
  | .exact => return
  | .widen => insertCast node value expected
  | .no => report environment node (.returnTypeMismatch expected.text found.text)

def returnFrom (node : NodeId) (value : Option NodeId) : Inference Unit := do
  let found ← value.mapM (expression environment)
  match (← get).result, value with
  | none, _ => return
  | some .void, none => return
  | some _, none => report environment node .returnValueMissing
  | some .void, some _ => report environment node .cannotReturnValue
  | some expected, some value =>
      match found.join with
      | none => return
      | some found => returnValue environment node value found expected

/-- What is wrong with assigning a value that does not fit. -/
def mismatch (operator : AssignOperator) (value target : Ty) : DiagnosticKind :=
  if operator = .assign then .cannotAssign value.text target.text
  else .cannotApplyOperator operator.symbol

/-- Checks storing a value in a slot. -/
def store (statement : NodeId) (operator : AssignOperator) (value : NodeId)
    (targetType valueType : Option Ty) : Inference Unit := do
  let some target := targetType | return
  let some source := valueType | return
  if !operator.takes target source then
    report environment statement (.cannotApplyOperator operator.symbol)
  else
    match assignability source target with
    | .exact => return
    | .widen => insertCast statement value target
    | .no => report environment statement (mismatch operator source target)

/-- Declares a variable with a written type. A name that is visible, or was
declared in a nested body before, is a duplicate and stays what it is. -/
def define (definition : NodeId) (name : String) (type : Option Ty) : Inference Unit := do
  let names ← scopes
  match (names.lookup name).map Binding.node <|> names.nested name with
  | some earlier => reportDuplicate environment earlier definition name
  | none => onScopes (Scopes.declare name ⟨type, definition, .inner⟩)

/-- `type name` becomes `type name := default`. Without a known type it stays
alone. -/
def bareDefinition (statement : NodeId) (type : Option NodeId) (name : String) :
    Inference NodeId := do
  let some written := type | throw (.unexpectedNode statement "typed VariableDefinition")
  let declared ← resolveType environment written
  setType statement declared
  define environment statement name declared
  match declared with
  | none => return statement
  | some declared =>
      let value ← addDefault declared statement
      add (.assign .assign statement value) statement

/-- Makes the target of an assignment a definition. It has a written type unless
the value's type is unknown or `null`. -/
def implicitDefinition (statement target : NodeId) (name : String) (valueType : Option Ty) :
    Inference Unit := do
  let type := valueType.filter fun type => type ≠ .null
  let written ← type.mapM fun type => addTypeRef type target
  let definition ← onTree (SourceTree.alloc (.definition written name))
  setType definition type
  onTree (SourceTree.onSpans (SpanTable.move target definition))
  onTree (SourceTree.replaceChild statement target definition "Assign")
  onScopes (Scopes.declare name ⟨type, definition, .inner⟩)

/-- `name := value` and the compound forms, which need a visible name. -/
def nameAssignment (statement : NodeId) (operator : AssignOperator) (target : NodeId)
    (name : String) (value : NodeId) (valueType : Option Ty) : Inference Unit := do
  let names ← scopes
  match names.lookup name with
  | some binding =>
      setType target binding.type
      store environment statement operator value binding.type valueType
  | none =>
      if operator ≠ .assign then report environment target (.cannotFindMember name)
      else
        match names.nested name with
        | some earlier =>
            reportDuplicate environment earlier target name
            setType target valueType
            onScopes (Scopes.declare name ⟨valueType, target, .inner⟩)
        | none => implicitDefinition statement target name valueType

/-- The type of a value that is assigned. A call without a result has none. -/
def assignedType (value : NodeId) : Inference (Option Ty) := do
  match ← expression environment value with
  | some .void =>
      report environment value .cannotAssignNone
      return none
  | type => return type

def assignment (statement : NodeId) (operator : AssignOperator) (target value : NodeId) :
    Inference Unit := do
  let valueType ← assignedType environment value
  match ← kind? target with
  | some (.definition (some written) name) =>
      let declared ← resolveType environment written
      setType target declared
      define environment target name declared
      store environment statement operator value declared valueType
  | some (.member name) =>
      nameAssignment environment statement operator target name value valueType
  | some (.memberAccess ..) | some (.indexAccess ..) =>
      let targetType ← expression environment target
      store environment statement operator value targetType valueType
  | _ => throw (.unexpectedNode target "assignment target")

variable (check : NodeId → Inference NodeId)

/-- Checks the statements of a body in a frame of their own. -/
def body (node : NodeId) : Inference Unit := do
  match ← kind? node with
  | some (.body statements) =>
      onScopes Scopes.push
      let checked ← statements.mapM check
      onTree (SourceTree.setKind node (.body checked))
      onScopes Scopes.pop
  | _ => throw (.unexpectedNode node "Body")

def whileLoop (condition block : NodeId) : Inference Unit := do
  predicate environment condition
  modify fun state => { state with loopDepth := state.loopDepth + 1 }
  body check block
  modify fun state => { state with loopDepth := state.loopDepth - 1 }

/-- Checks one statement, and returns the node that takes its place. -/
def anyStatement (node : NodeId) : Inference NodeId := do
  match ← kind? node with
  | some (.definition type name) => bareDefinition environment node type name
  | some (.assign operator target value) =>
      assignment environment node operator target value
      return node
  | some (.condition condition thenBody elseBody) =>
      predicate environment condition
      body check thenBody
      elseBody.forM (body check)
      return node
  | some (.loop condition block) =>
      whileLoop environment check condition block
      return node
  | some (.returnFrom value) =>
      returnFrom environment node value
      return node
  | some .breakLoop =>
      jump environment node .breakWord
      return node
  | some .continueLoop =>
      jump environment node .continueWord
      return node
  | some (.body _) =>
      body check node
      return node
  | some (.call ..) | some (.construct ..) | some (.unary ..) =>
      let _ ← expression environment node
      return node
  | _ => throw (.unexpectedNode node "statement")

end Rules

variable (environment : Environment)

def statementWithin : (budget : Nat) → NodeId → Inference NodeId
  | 0, _ => throw .exhausted
  | budget + 1, node => anyStatement environment (statementWithin budget) node

/-- Checks a body with all that it encloses. Bodies are nested no deeper than the
arena is large. -/
def wholeBody (node : NodeId) : Inference Unit := do
  body (statementWithin environment ((← get).tree.arena.size + 1)) node

end ModuleLang.Inference
