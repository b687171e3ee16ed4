import ModuleLang.Literal
import ModuleLang.Tree.Operators

/-!
Nodes of a module. A node kind is written over the type of its child slots, so
the same kinds describe nodes that refer to their children by number, nodes
whose children are already texts, and whole trees. `children` lists the slots in
source order and `mapM` visits them in that order.
-/

namespace ModuleLang

/-- Number of a node. Two nodes are the same when their numbers are. -/
structure NodeId where
  index : Nat
deriving DecidableEq, Inhabited

def NodeId.text (node : NodeId) : String := "NodeId(" ++ toString node.index ++ ")"

/-- Dotted name of a module. -/
structure ModulePath where
  segments : List String
deriving DecidableEq

def ModulePath.text (path : ModulePath) : String := ".".intercalate path.segments

inductive NodeKind (slot : Type)
  | root (modules imports functions : List slot)
  | moduleDef (path : ModulePath)
  | useDef (path : ModulePath)
  /-- Without a result type the function returns nothing. -/
  | function (result : Option slot) (name : String) (parameters : List slot) (body : slot)
  | parameter (type : slot) (name : String)
  | body (statements : List slot)
  | condition (predicate thenBody : slot) (elseBody : Option slot)
  | loop (predicate body : slot)
  | returnFrom (value : Option slot)
  | breakLoop
  | continueLoop
  | call (name : String) (arguments : List slot)
  | construct (type : slot) (arguments : List slot)
  | newArray (element length : slot)
  /-- `source` is the type of `inner`, once it has been looked for. -/
  | cast (target inner : slot) (source : Option Ty)
  | member (name : String)
  | memberAccess (owner : slot) (name : String)
  | indexAccess (target index : slot)
  | definition (type : Option slot) (name : String)
  | assign (operator : AssignOperator) (target value : slot)
  | binary (operator : BinaryOperator) (left right : slot)
  | unary (operator : UnaryOperator) (operand : slot)
  | literal (value : Literal)
  /-- A type as written: a name and the ranks of its suffixes, innermost first. -/
  | typeRef (name : String) (ranks : List Nat)
deriving DecidableEq

namespace NodeKind

variable {slot : Type}

/-- Name of a kind in trees and in reports of internal errors. -/
def label : NodeKind slot → String
  | root .. => "Root"
  | moduleDef _ => "ModuleDef"
  | useDef _ => "Import"
  | function .. => "FuncDef"
  | parameter .. => "Parameter"
  | body _ => "Body"
  | condition .. => "Condition"
  | loop .. => "While"
  | returnFrom _ => "Return"
  | breakLoop => "Break"
  | continueLoop => "Continue"
  | call .. => "Call"
  | construct .. => "ConstructorCall"
  | newArray .. => "ArrayInit"
  | cast .. => "Cast"
  | member _ => "Member"
  | memberAccess .. => "MemberAccess"
  | indexAccess .. => "IndexAccess"
  | definition .. => "VariableDefinition"
  | assign .. => "Assign"
  | binary .. => "Binary"
  | unary .. => "Unary"
  | literal _ => "Literal"
  | typeRef .. => "TypeRef"

/-- Child slots in source order. -/
def children : NodeKind slot → List slot
  | root modules imports functions => modules ++ imports ++ functions
  | function result _ parameters block => result.toList ++ parameters ++ [block]
  | parameter type _ => [type]
  | body statements => statements
  | condition predicate thenBody elseBody => predicate :: thenBody :: elseBody.toList
  | loop predicate block => [predicate, block]
  | returnFrom value => value.toList
  | call _ arguments => arguments
  | construct type arguments => type :: arguments
  | newArray element length => [element, length]
  | cast target inner _ => [target, inner]
  | memberAccess owner _ => [owner]
  | indexAccess target index => [target, index]
  | definition type _ => type.toList
  | assign _ target value => [target, value]
  | binary _ left right => [left, right]
  | unary _ operand => [operand]
  | moduleDef _ | useDef _ | breakLoop | continueLoop | member _ | literal _ | typeRef .. => []

/-- Replaces every child slot, visiting the slots in source order. -/
def mapM {effect : Type → Type} [Monad effect] {image : Type} (visit : slot → effect image) :
    NodeKind slot → effect (NodeKind image)
  | root modules imports functions =>
      return root (← modules.mapM visit) (← imports.mapM visit) (← functions.mapM visit)
  | moduleDef path => return moduleDef path
  | useDef path => return useDef path
  | function result name parameters block =>
      return function (← result.mapM visit) name (← parameters.mapM visit) (← visit block)
  | parameter type name => return parameter (← visit type) name
  | body statements => return body (← statements.mapM visit)
  | condition predicate thenBody elseBody =>
      return condition (← visit predicate) (← visit thenBody) (← elseBody.mapM visit)
  | loop predicate block => return loop (← visit predicate) (← visit block)
  | returnFrom value => return returnFrom (← value.mapM visit)
  | breakLoop => return breakLoop
  | continueLoop => return continueLoop
  | call name arguments => return call name (← arguments.mapM visit)
  | construct type arguments => return construct (← visit type) (← arguments.mapM visit)
  | newArray element length => return newArray (← visit element) (← visit length)
  | cast target inner source => return cast (← visit target) (← visit inner) source
  | member name => return member name
  | memberAccess owner name => return memberAccess (← visit owner) name
  | indexAccess target index => return indexAccess (← visit target) (← visit index)
  | definition type name => return definition (← type.mapM visit) name
  | assign operator target value => return assign operator (← visit target) (← visit value)
  | binary operator left right => return binary operator (← visit left) (← visit right)
  | unary operator operand => return unary operator (← visit operand)
  | literal value => return literal value
  | typeRef name ranks => return typeRef name ranks

/-- Step of a replacement that happens at most once. -/
def replaceSlot [DecidableEq slot] (old new seen : slot) : StateM Bool slot := do
  if !(← get) && seen = old then
    set true
    return new
  else return seen

/-- Puts `new` into the first slot that holds `old`; fails if no slot does. -/
def replaceChild? [DecidableEq slot] (old new : slot) (kind : NodeKind slot) :
    Option (NodeKind slot) :=
  let (replaced, found) := (kind.mapM (replaceSlot old new)).run false
  if found then some replaced else none

/-- Name of a function, parameter, variable, member or call. -/
def name? : NodeKind slot → Option String
  | function _ name _ _ | parameter _ name | definition _ name | member name | call name _ =>
      some name
  | _ => none

/-- Whether a node computes a value. -/
def isExpression : NodeKind slot → Bool
  | call .. | construct .. | newArray .. | cast .. | member _ | memberAccess .. | indexAccess ..
  | binary .. | unary .. | literal _ => true
  | _ => false

end NodeKind

/-- A node: its kind, and its type once that is known. -/
structure Node where
  kind : NodeKind NodeId
  type : Option Ty
deriving DecidableEq

end ModuleLang
