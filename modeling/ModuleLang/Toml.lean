/-!
TOML values. Floating numbers and times keep their written form, because no
setting is one; a document is a table.
-/

namespace ModuleLang

inductive Toml
  | string (value : String)
  | integer (value : Int)
  | float (written : String)
  | bool (value : Bool)
  /-- A date, a time or both. -/
  | time (written : String)
  | array (items : List Toml)
  | table (entries : List (String × Toml))
deriving Inhabited

namespace Toml

/-- Text of a boolean. -/
def boolText (value : Bool) : String := if value then "true" else "false"

/-!
Parts of TOML values, for readers of settings. What belongs together is written
as a table with names, or as an array in the order of the names. A time stands
for a table that has none of them.
-/

def asString? : Toml → Option String
  | string value => some value
  | _ => none

def asBool? : Toml → Option Bool
  | bool value => some value
  | _ => none

/-- An array of values of one kind. -/
def asList? {α : Type} (read : Toml → Option α) : Toml → Option (List α)
  | array items => items.mapM read
  | _ => none

/-- Whether a value can have parts. -/
def hasParts : Toml → Bool
  | table _ | array _ | time _ => true
  | _ => false

def isArray : Toml → Bool
  | array _ => true
  | _ => false

/-- A part by its name and its place. -/
def part? (value : Toml) (place : Nat) (name : String) : Option Toml :=
  match value with
  | table entries => entries.lookup name
  | array items => items[place]?
  | _ => none

/-- A part that must be there. -/
def required? {α : Type} (read : Toml → Option α) (value : Toml) (place : Nat) (name : String) :
    Option α :=
  (value.part? place name).bind read

/-- A part with a default. -/
def defaulted? {α : Type} (read : Toml → Option α) (default : α) (value : Toml) (place : Nat)
    (name : String) : Option α :=
  match value.part? place name with
  | none => some default
  | some part => read part

/-- A part that may be missing in a table but not in an array. -/
def optional? {α : Type} (read : Toml → Option α) (value : Toml) (place : Nat) (name : String) :
    Option (Option α) :=
  match value.part? place name with
  | none => if value.isArray then none else some none
  | some part => (read part).map some

end Toml

end ModuleLang
