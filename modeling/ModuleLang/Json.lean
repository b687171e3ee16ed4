/-!
JSON values and their text. Numbers are kept as they are written. The members
of an object are written in the order of their names.
-/

namespace ModuleLang

inductive Json
  | null
  | bool (value : Bool)
  /-- A number in its written form. -/
  | number (text : String)
  | string (value : String)
  | array (items : List Json)
  | object (members : List (String × Json))
deriving Inhabited

namespace Json

def nat (value : Nat) : Json := number (toString value)

def int (value : Int) : Json := number (toString value)

def ofOption (value : Option Json) : Json := value.getD null

/-- An object with its members in the order of their names. -/
def record (members : List (String × Json)) : Json :=
  object (members.mergeSort fun left right => left.1 ≤ right.1)

/-- Four hexadecimal digits of a control character. -/
def controlDigits (code : Nat) : List Char :=
  let digits := Nat.toDigits 16 code
  List.replicate (4 - digits.length) '0' ++ digits

def escape (character : Char) : List Char :=
  match character with
  | '\x22' => ['\\', '\x22']
  | '\\' => ['\\', '\\']
  | '\x08' => ['\\', 'b']
  | '\x0c' => ['\\', 'f']
  | '\n' => ['\\', 'n']
  | '\r' => ['\\', 'r']
  | '\t' => ['\\', 't']
  | _ =>
      if character.toNat < 32 then ['\\', 'u'] ++ controlDigits character.toNat
      else [character]

/-- A string between quotes. Only quotes, backslashes and controls are escaped. -/
def quoted (text : String) : String :=
  String.ofList ('\x22' :: text.toList.flatMap escape ++ ['\x22'])

mutual

/-- Text on one line. -/
def compact : Json → String
  | null => "null"
  | bool value => if value then "true" else "false"
  | number text => text
  | string value => quoted value
  | array items => "[" ++ ",".intercalate (compactItems items) ++ "]"
  | object members => "\x7b" ++ ",".intercalate (compactMembers members) ++ "\x7d"

def compactItems : List Json → List String
  | [] => []
  | item :: items => compact item :: compactItems items

def compactMembers : List (String × Json) → List String
  | [] => []
  | (name, value) :: members => (quoted name ++ ":" ++ compact value) :: compactMembers members

end

def indent (depth : Nat) : String := String.ofList (List.replicate (2 * depth) ' ')

/-- Entries on lines of their own between brackets; nothing between them when
there are no entries. -/
def block (opening closing : String) (depth : Nat) (entries : List String) : String :=
  if entries.isEmpty then opening ++ closing
  else
    opening ++ "\n" ++ indent (depth + 1) ++
      (",\n" ++ indent (depth + 1)).intercalate entries ++ "\n" ++ indent depth ++ closing

mutual

/-- Text over several lines, two spaces deeper for every level. -/
def prettyAt (depth : Nat) : Json → String
  | array items => block "[" "]" depth (prettyItems (depth + 1) items)
  | object members => block "\x7b" "\x7d" depth (prettyMembers (depth + 1) members)
  | other => compact other

def prettyItems (depth : Nat) : List Json → List String
  | [] => []
  | item :: items => prettyAt depth item :: prettyItems depth items

def prettyMembers (depth : Nat) : List (String × Json) → List String
  | [] => []
  | (name, value) :: members =>
      (quoted name ++ ": " ++ prettyAt depth value) :: prettyMembers depth members

end

def pretty (value : Json) : String := prettyAt 0 value

/-!
Parts of JSON values, for readers of records. A part that is not there, or is of
another kind, is no part.
-/

/-- The first member of a name. -/
def member? (name : String) : Json → Option Json
  | object members => members.lookup name
  | _ => none

/-- An object with one member, as a name and a value. -/
def variant? : Json → Option (String × Json)
  | object [entry] => some entry
  | _ => none

def string? : Json → Option String
  | string value => some value
  | _ => none

def bool? : Json → Option Bool
  | bool value => some value
  | _ => none

def char? (value : Json) : Option Char :=
  match (value.string?).map String.toList with
  | some [character] => some character
  | _ => none

/-- An integer, written without fraction and exponent. -/
def int? : Json → Option Int
  | number text => text.toInt?
  | _ => none

def nat? (value : Json) : Option Nat :=
  match value.int? with
  | some (.ofNat whole) => some whole
  | _ => none

/-- An array of values of one kind. -/
def list? {α : Type} (read : Json → Option α) : Json → Option (List α)
  | array items => items.mapM read
  | _ => none

/-- A value that may be `null`. -/
def nullable? {α : Type} (read : Json → Option α) : Json → Option (Option α)
  | null => some none
  | value => (read value).map some

/-- A member that must be there. -/
def field? {α : Type} (read : Json → Option α) (name : String) (value : Json) : Option α :=
  (value.member? name).bind read

/-- A member that may be missing or `null`. -/
def optionalField? {α : Type} (read : Json → Option α) (name : String) (value : Json) :
    Option (Option α) :=
  match value.member? name with
  | none => some none
  | some part => nullable? read part

/-- A list that may be missing, for an empty one. -/
def listField? {α : Type} (read : Json → Option α) (name : String) (value : Json) :
    Option (List α) :=
  match value.member? name with
  | none => some []
  | some part => list? read part

end Json

end ModuleLang
