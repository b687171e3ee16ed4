import ModuleLang.Validation.Names
import ModuleLang.Validation.Returns

/-!
The checks of a whole module, in the order in which they are run.
-/

namespace ModuleLang

inductive Validator
  | moduleName
  | duplicateParameters
  | memberNames
  | mustReturn
  /-- Adds returns and reports nothing. -/
  | implicitReturn
deriving DecidableEq

namespace Validator

def all : List Validator :=
  [moduleName, duplicateParameters, memberNames, mustReturn, implicitReturn]

def name : Validator → String
  | moduleName => "module-name"
  | duplicateParameters => "duplicate-parameters"
  | memberNames => "member-names"
  | mustReturn => "must-return"
  | implicitReturn => "implicit-return"

def ofName? (name : String) : Option Validator := all.find? fun validator => validator.name == name

theorem ofName?_name (validator : Validator) : ofName? validator.name = some validator := by
  cases validator <;> decide

def run (root : ModuleRoot) : Validator → SourceTree.Action (List Diagnostic)
  | moduleName => root.moduleNameFindings
  | duplicateParameters => root.parameterFindings
  | memberNames => root.memberFindings
  | mustReturn => root.returnFindings
  | implicitReturn => root.completeReturns

end Validator

end ModuleLang
