import ModuleLang.Json
import ModuleLang.Text.Letter

/-!
Reading JSON texts. A text is one value with blanks around it; nothing that the
grammar leaves out is accepted. Numbers keep their written form, and two members
of one name are both kept. Every step behind a value moves on in the text, so the
number of its characters bounds the depth and the length of everything in it.
-/

namespace ModuleLang.Json

open ModuleLang.Text

def isSpace (character : Char) : Bool :=
  character == ' ' || character == '\t' || character == '\n' || character == '\r'

def skipSpace (text : List Char) : List Char := text.dropWhile isSpace

/-- Value of a hexadecimal digit of either case. -/
def hexDigit? (character : Char) : Option Nat :=
  let code := character.toNat
  if isAsciiDigit character then some (code - '0'.toNat)
  else if 'a' ≤ character ∧ character ≤ 'f' then some (code - 'a'.toNat + 10)
  else if 'A' ≤ character ∧ character ≤ 'F' then some (code - 'A'.toNat + 10)
  else none

/-- Value of four hexadecimal digits, and what follows them. -/
def codeUnit? : List Char → Option (Nat × List Char)
  | first :: second :: third :: fourth :: rest => do
      let digits ← [first, second, third, fourth].mapM hexDigit?
      return (digits.foldl (fun value digit => 16 * value + digit) 0, rest)
  | _ => none

/-- The character of a code point, if that is one. -/
def scalar? (code : Nat) : Option Char :=
  if valid : code.isValidChar then some (Char.ofNatAux code valid) else none

/-- A character outside the basic plane takes two code units. -/
def unicodeEscape? (text : List Char) : Option (Char × List Char) := do
  let (high, rest) ← codeUnit? text
  if 0xd800 ≤ high ∧ high < 0xdc00 then
    match rest with
    | '\\' :: 'u' :: rest =>
        let (low, rest) ← codeUnit? rest
        if 0xdc00 ≤ low ∧ low < 0xe000 then
          return (← scalar? (0x10000 + (high - 0xd800) * 0x400 + (low - 0xdc00)), rest)
        else none
    | _ => none
  else return (← scalar? high, rest)

/-- What stands behind a backslash, and what follows it. -/
def escape? : List Char → Option (Char × List Char)
  | '\x22' :: rest => some ('\x22', rest)
  | '\\' :: rest => some ('\\', rest)
  | '/' :: rest => some ('/', rest)
  | 'b' :: rest => some ('\x08', rest)
  | 'f' :: rest => some ('\x0c', rest)
  | 'n' :: rest => some ('\n', rest)
  | 'r' :: rest => some ('\r', rest)
  | 't' :: rest => some ('\t', rest)
  | 'u' :: rest => unicodeEscape? rest
  | _ => none

/-- Characters up to the closing quote, put before those in `read`, which are
given backwards. -/
def stringBody? : (budget : Nat) → (read : List Char) → List Char → Option (String × List Char)
  | 0, _, _ => none
  | _ + 1, _, [] => none
  | _ + 1, read, '\x22' :: rest => some (String.ofList read.reverse, rest)
  | budget + 1, read, '\\' :: rest => do
      let (character, rest) ← escape? rest
      stringBody? budget (character :: read) rest
  | budget + 1, read, character :: rest =>
      if character.toNat < 32 then none else stringBody? budget (character :: read) rest

/-- A row of at least one digit, and what follows it. -/
def digits? (text : List Char) : Option (List Char × List Char) :=
  let row := text.takeWhile isAsciiDigit
  if row.isEmpty then none else some (row, text.drop row.length)

/-- The whole part of a number: zero, or digits that do not begin with zero. -/
def wholePart? : List Char → Option (List Char × List Char)
  | '0' :: rest => some (['0'], rest)
  | text => digits? text

def fractionPart? : List Char → Option (List Char × List Char)
  | '.' :: rest => (digits? rest).map fun part => ('.' :: part.1, part.2)
  | text => some ([], text)

def exponentPart? : List Char → Option (List Char × List Char)
  | mark :: rest =>
      if mark == 'e' || mark == 'E' then
        match rest with
        | '+' :: rest => (digits? rest).map fun part => (mark :: '+' :: part.1, part.2)
        | '-' :: rest => (digits? rest).map fun part => (mark :: '-' :: part.1, part.2)
        | _ => (digits? rest).map fun part => (mark :: part.1, part.2)
      else some ([], mark :: rest)
  | [] => some ([], [])

/-- A number in its written form, and what follows it. -/
def number? (text : List Char) : Option (Json × List Char) := do
  let (sign, text) := match text with
    | '-' :: rest => (['-'], rest)
    | _ => ([], text)
  let (whole, text) ← wholePart? text
  let (fraction, text) ← fractionPart? text
  let (exponent, text) ← exponentPart? text
  return (number (String.ofList (sign ++ whole ++ fraction ++ exponent)), text)

/-- What follows a word that a text begins with. -/
def afterWord? (word : String) (text : List Char) : Option (List Char) :=
  if word.toList.isPrefixOf text then some (text.drop word.length) else none

mutual

/-- A value, and what follows it. -/
def value? : (budget : Nat) → List Char → Option (Json × List Char)
  | 0, _ => none
  | budget + 1, text =>
      match skipSpace text with
      | '\x22' :: rest => (stringBody? (rest.length + 1) [] rest).map fun part =>
          (string part.1, part.2)
      | '[' :: rest =>
          match skipSpace rest with
          | ']' :: rest => some (array [], rest)
          | rest => items? budget [] rest
      | '\x7b' :: rest =>
          match skipSpace rest with
          | '\x7d' :: rest => some (object [], rest)
          | rest => members? budget [] rest
      | rest =>
          ((afterWord? "null" rest).map fun rest => (null, rest)) <|>
            ((afterWord? "true" rest).map fun rest => (bool true, rest)) <|>
            ((afterWord? "false" rest).map fun rest => (bool false, rest)) <|> number? rest

/-- Items of an array behind those in `items`, which are given backwards. -/
def items? : (budget : Nat) → (items : List Json) → List Char → Option (Json × List Char)
  | 0, _, _ => none
  | budget + 1, items, text => do
      let (item, rest) ← value? budget text
      match skipSpace rest with
      | ',' :: rest => items? budget (item :: items) rest
      | ']' :: rest => return (array (item :: items).reverse, rest)
      | _ => none

/-- Members of an object behind those in `members`, which are given backwards. -/
def members? : (budget : Nat) → (members : List (String × Json)) → List Char →
    Option (Json × List Char)
  | 0, _, _ => none
  | budget + 1, members, text =>
      match skipSpace text with
      | '\x22' :: rest => do
          let (name, rest) ← stringBody? (rest.length + 1) [] rest
          match skipSpace rest with
          | ':' :: rest => do
              let (value, rest) ← value? budget rest
              match skipSpace rest with
              | ',' :: rest => members? budget ((name, value) :: members) rest
              | '\x7d' :: rest => return (object ((name, value) :: members).reverse, rest)
              | _ => none
          | _ => none
      | _ => none

end

/-- The value of a whole text. -/
def ofText? (text : String) : Option Json := do
  let (value, rest) ← value? (text.length + 1) text.toList
  if (skipSpace rest).isEmpty then return value else none

end ModuleLang.Json
