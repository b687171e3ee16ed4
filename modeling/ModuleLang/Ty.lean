/-!
The types of the language. Numbers come as integers and floating numbers,
arrays carry a rank, and a named type belongs to the host of a module. A slot of
type `any` takes every value. `void` and `null` are never written: they are the
result of a call that returns nothing and the type of the literal `null`.
-/

namespace ModuleLang

inductive Ty
  | int
  | uint
  | long
  | ulong
  | byte
  | float
  | double
  | bool
  | string
  | char
  | any
  | void
  | null
  /-- An array whose rank counts its dimensions. -/
  | array (element : Ty) (rank : Nat)
  | named (name : String)
deriving DecidableEq, Inhabited

namespace Ty

/-- Types that every module may write without a declaration, under their
written names. -/
def builtins : List (String × Ty) :=
  [("int", int), ("uint", uint), ("long", long), ("ulong", ulong), ("byte", byte),
    ("float", float), ("double", double), ("bool", bool), ("string", string),
    ("char", char), ("any", any)]

/-- The built-in type with a written name. -/
def builtin? (name : String) : Option Ty := builtins.lookup name

def isInteger : Ty → Bool
  | int | uint | long | ulong | byte => true
  | _ => false

def isFloating : Ty → Bool
  | float | double => true
  | _ => false

def isNumeric (type : Ty) : Bool := type.isInteger || type.isFloating

/-- Types whose values may be `null`. -/
def isNullable : Ty → Bool
  | string | array .. | named _ | any | null => true
  | _ => false

/-- Suffix of an array type: one comma less than the rank. Rank zero is written
as rank one. -/
def rankSuffix (rank : Nat) : String :=
  "[" ++ String.ofList (List.replicate (rank - 1) ',') ++ "]"

/-- The written form of a type. Array suffixes follow their element. -/
def text : Ty → String
  | int => "int"
  | uint => "uint"
  | long => "long"
  | ulong => "ulong"
  | byte => "byte"
  | float => "float"
  | double => "double"
  | bool => "bool"
  | string => "string"
  | char => "char"
  | any => "any"
  | void => "void"
  | null => "null"
  | array element rank => element.text ++ rankSuffix rank
  | named name => name

/-- Arrays around `base`, the first rank innermost. -/
def layered (base : Ty) (ranks : List Nat) : Ty := ranks.foldl array base

/-- The innermost element type and the ranks around it, innermost first. -/
def layers : Ty → Ty × List Nat
  | array element rank => let (base, ranks) := element.layers; (base, ranks ++ [rank])
  | base => (base, [])

theorem layered_layers (type : Ty) : type.layers.1.layered type.layers.2 = type := by
  induction type with
  | array element rank ih => simp [layers, layered, List.foldl_append] at *; exact ih
  | _ => rfl

end Ty

end ModuleLang
