import ModuleLang.Parsing.Module
import ModuleLang.Typing.Inference.Module
import ModuleLang.Validation

/-!
A module that went through all stages: reading, inference and validation. The
diagnostics are in the order of the stages, and a later stage runs whatever an
earlier one reported.
-/

namespace ModuleLang

structure CheckedModule where
  tree : SourceTree
  root : NodeId
  diagnostics : List Diagnostic
  fileName : String

namespace CheckedModule

/-- Inference and then every validator, as one action on the tree. -/
def stages (host : Host) (root : ModuleRoot) : SourceTree.Action (List Diagnostic) := do
  let inferred ← SourceTree.inferTypes root.fileName host root.node
  let validated ← Validator.all.mapM fun validator => validator.run root
  return inferred ++ validated.flatten

/-- Checks a parsed module against a host. -/
def ofParsed (parsed : ParsedModule) (host : Host) :
    Except InternalError CheckedModule :=
  match (stages host ⟨parsed.root, parsed.fileName⟩).run parsed.tree with
  | .ok found tree => .ok ⟨tree, parsed.root, parsed.diagnostics ++ found, parsed.fileName⟩
  | .error error _ => .error error

def ofText (text fileName : String) (host : Host) : Except InternalError CheckedModule := do
  ofParsed (← ParsedModule.ofText text fileName) host

def hasErrors (checked : CheckedModule) : Bool := Diagnostic.hasErrors checked.diagnostics

end CheckedModule

end ModuleLang
