import ModuleLang.Typing.Inference.Statement

/-!
Inference for a whole module. The signatures of all functions are collected
before the first body is looked at, so a call may mean a function that is
written further down.
-/

namespace ModuleLang.Inference

variable (environment : Environment)

/-- Resolves the type of a parameter and stores it on the node. -/
def parameterType (parameter : NodeId) : Inference (Option Ty) := do
  match ← kind? parameter with
  | some (.parameter written _) =>
      let type ← resolveType environment written
      setType parameter type
      return type
  | _ => throw (.unexpectedNode parameter "Parameter")

def resultType (written : Option NodeId) : Inference (Option Ty) :=
  match written with
  | none => return some .void
  | some written => resolveType environment written

def signature (function : NodeId) : Inference Signature := do
  match ← kind? function with
  | some (.function result name parameters _) =>
      let resultType ← resultType environment result
      let parameterTypes ← parameters.mapM (parameterType environment)
      return ⟨name, parameterTypes, resultType⟩
  | _ => throw (.unexpectedNode function "FuncDef")

/-- Declares a parameter. Of several with one name the first one counts. -/
def declareParameter (parameter : NodeId) : Inference Unit := do
  match ← kind? parameter with
  | some (.parameter _ name) =>
      if ((← scopes).lookup name).isNone then
        let type ← type? parameter
        onScopes (Scopes.declare name ⟨type, parameter, .parameter⟩)
  | _ => throw (.unexpectedNode parameter "Parameter")

/-- Starts a function with no names declared and no loop around. -/
def enter (result : Option NodeId) : Inference Unit := do
  let type ← match result with
    | none => pure (some .void)
    | some written => type? written
  modify fun state => { state with scopes := .empty, loopDepth := 0, result := type }

def function (node : NodeId) : Inference Unit := do
  match ← kind? node with
  | some (.function result _ parameters block) =>
      enter result
      parameters.forM declareParameter
      wholeBody environment block
  | _ => throw (.unexpectedNode node "FuncDef")

def wholeModule (fileName : String) (host : Host) (root : NodeId) : Inference Unit := do
  match ← kind? root with
  | some (.root _ _ functions) =>
      let signatures ← functions.mapM (signature ⟨fileName, host, []⟩)
      functions.forM (function ⟨fileName, host, signatures⟩)
  | _ => throw (.unexpectedNode root "Root")

end ModuleLang.Inference

namespace ModuleLang.SourceTree

/-- Infers the types of a module and completes its tree accordingly. -/
def inferTypes (fileName : String) (host : Host) (root : NodeId) : Action (List Diagnostic) :=
  Inference.diagnose (Inference.wholeModule fileName host root)

end ModuleLang.SourceTree
