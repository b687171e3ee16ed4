import ModuleLang.Text.Character
import ModuleLang.Typing.Signature

/-!
What a host offers to modules: types, functions, and members of types. A host is
described by the written names of its types and resolved once, before a module
is checked; a name that is neither built in nor described is refused.
-/

namespace ModuleLang

open ModuleLang.Text

structure HostFunction where
  name : String
  parameters : List String
  /-- Without a result the function returns nothing. -/
  result : Option String
deriving DecidableEq

structure HostMember where
  owner : String
  name : String
  type : String
deriving DecidableEq

/-- A host in the words of its description. -/
structure HostDescriptions where
  types : List String
  functions : List HostFunction
  members : List HostMember
deriving DecidableEq

/-- A host with all types resolved. -/
structure Host where
  types : List String
  functions : List Signature
  /-- Types of members by owner and name, the latest description first. -/
  members : List ((Ty × String) × Ty)
deriving DecidableEq

namespace Host

/-- A host that offers nothing. -/
def empty : Host := ⟨[], [], []⟩

instance : Inhabited Host := ⟨empty⟩

def type? (host : Host) (name : String) : Option Ty :=
  if host.types.contains name then some (.named name) else none

def functionsNamed (host : Host) (name : String) : List Signature :=
  Signature.named name host.functions

def member? (host : Host) (owner : Ty) (name : String) : Option Ty :=
  host.members.lookup (owner, name)

end Host

/-- A description uses a name that is no type. -/
structure UnknownHostType where
  /-- Name of the function or member described. -/
  owner : String
  typeName : String
deriving DecidableEq

namespace UnknownHostType

def message (failure : UnknownHostType) : String :=
  "unknown type '" ++ failure.typeName ++ "' in host description of '" ++ failure.owner ++ "'"

end UnknownHostType

namespace TypeName

/-- Largest rank that can be described. -/
def rankLimit : Nat := 255

/-- Takes array suffixes off the end of a text that is given backwards: the rest
of the text, still backwards, and the ranks, innermost first. Blanks may stand
in front of a suffix. -/
def unsuffixed (reversed : List Char) (ranks : List Nat) : Option (List Char × List Nat) :=
  match reversed with
  | ']' :: behind =>
      match bracket : behind.dropWhile (· == ',') with
      | '[' :: rest =>
          let rank := (behind.takeWhile (· == ',')).length + 1
          if rank ≤ rankLimit then unsuffixed (rest.dropWhile isBlank) (rank :: ranks) else none
      | _ => none
  | _ => some (reversed, ranks)
termination_by reversed.length
decreasing_by
  have inner := (List.dropWhile_sublist (· == ',') (l := behind)).length_le
  have outer := (List.dropWhile_sublist isBlank (l := rest)).length_le
  rw [bracket] at inner
  simp only [List.length_cons] at *
  omega

/-- The type that a text names, where `types` are the host's types. Blanks
around the text do not count. -/
def resolve? (types : List String) (text : String) : Option Ty := do
  let (reversed, ranks) ← unsuffixed (trim text.toList).reverse []
  let name := String.ofList reversed.reverse
  match Ty.builtin? name with
  | some base => some (base.layered ranks)
  | none => if types.contains name then some ((Ty.named name).layered ranks) else none

end TypeName

namespace HostDescriptions

def empty : HostDescriptions := ⟨[], [], []⟩

def resolveType (descriptions : HostDescriptions) (owner typeName : String) :
    Except UnknownHostType Ty :=
  match TypeName.resolve? descriptions.types typeName with
  | some type => .ok type
  | none => .error ⟨owner, typeName⟩

def resolveFunction (descriptions : HostDescriptions) (function : HostFunction) :
    Except UnknownHostType Signature := do
  let parameters ← function.parameters.mapM (descriptions.resolveType function.name)
  match function.result with
  | none => return .known function.name parameters .void
  | some result =>
      return .known function.name parameters (← descriptions.resolveType function.name result)

def resolveMember (descriptions : HostDescriptions) (member : HostMember) :
    Except UnknownHostType ((Ty × String) × Ty) := do
  let owner ← descriptions.resolveType member.name member.owner
  let type ← descriptions.resolveType member.name member.type
  return ((owner, member.name), type)

/-- Resolves every type name of a description, functions before members. -/
def resolve (descriptions : HostDescriptions) : Except UnknownHostType Host := do
  let functions ← descriptions.functions.mapM descriptions.resolveFunction
  let members ← descriptions.members.mapM descriptions.resolveMember
  return ⟨descriptions.types, functions, members.reverse⟩

end HostDescriptions

end ModuleLang
