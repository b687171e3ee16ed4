import ModuleLang.Typing.Widening

/-!
Signatures of functions. A call is accepted argument by argument and nothing is
widened for it: a parameter of type `any` takes every argument, `null` fits the
types that may be `null`, and a type that could not be found out is held against
nobody.
-/

namespace ModuleLang

structure Signature where
  name : String
  /-- Unknown where the declared type was not found. -/
  parameters : List (Option Ty)
  /-- `void` for a function that returns nothing, unknown where the declared
  type was not found. -/
  result : Option Ty
deriving DecidableEq

namespace Signature

/-- A signature whose types are all known. -/
def known (name : String) (parameters : List Ty) (result : Ty) : Signature :=
  ⟨name, parameters.map some, some result⟩

def acceptsArgument : (parameter argument : Option Ty) → Bool
  | some parameter, some argument => assignability argument parameter == .exact
  | _, _ => true

/-- Whether arguments of the given types can be passed. -/
def accepts (signature : Signature) (arguments : List (Option Ty)) : Bool :=
  signature.parameters.length == arguments.length &&
    (signature.parameters.zip arguments).all fun pair => acceptsArgument pair.1 pair.2

/-- Functions that every module can call. -/
def intrinsics : List Signature :=
  [known "print" [.any] .void, known "println" [.any] .void, known "read_line" [] .string,
    known "to_string" [.any] .string, known "parse_int" [.string] .int,
    known "empty_array" [] (.array .any 1)]

def intrinsic? (name : String) : Option Signature :=
  intrinsics.find? fun signature => signature.name == name

/-- The signatures with a name, in their order. -/
def named (name : String) (signatures : List Signature) : List Signature :=
  signatures.filter fun signature => signature.name == name

end Signature

end ModuleLang
