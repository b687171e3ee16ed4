import ModuleLang.Toml

/-!
Writing TOML. A string is written between double quotes as long as nothing in it
needs an escape, else in the first of the other forms that can hold it without
one, and with escapes only if none can.
-/

namespace ModuleLang.Toml

/-- Length of the longest row of a character. -/
def longestRow (wanted : Char) (text : List Char) : Nat :=
  (text.foldl (fun (longest, row) character =>
    let row := if character == wanted then row + 1 else 0
    (max longest row, row)) (0, 0)).1

/-- Control characters other than a tab and a line feed. -/
def isControl (character : Char) : Bool :=
  (character.toNat < 0x20 || character.toNat == 0x7f) && character != '\t' && character != '\n'

inductive StringForm
  | basic
  | literal
  | longBasic
  | longLiteral
deriving DecidableEq

/-- The form that a string is written in. -/
def StringForm.of (text : List Char) : StringForm :=
  let controls := text.any isControl
  let backslash := text.contains '\\'
  let newline := text.contains '\n'
  let doubles := longestRow '\x22' text
  let singles := longestRow '\x27' text
  if !controls && !backslash && doubles == 0 && !newline then .basic
  else if !controls && singles == 0 && !newline then .literal
  else if !controls && !backslash && doubles ≤ 2 then .longBasic
  else if !controls && singles ≤ 2 then .longLiteral
  else if newline then .longBasic
  else .basic

/-- At least four hexadecimal digits of a code, in capitals. -/
def codeDigits (code : Nat) : List Char :=
  let digits := (Nat.toDigits 16 code).map Char.toUpper
  List.replicate (4 - digits.length) '0' ++ digits

/-- A character of a basic string, behind a row of `quotes` double quotes. Up to
two of them need no escape in a string that spans lines. -/
def escapeBasic (long : Bool) (quotes : Nat) (character : Char) : List Char :=
  match character with
  | '\x22' => if long && quotes < 2 then ['\x22'] else ['\\', '\x22']
  | '\\' => ['\\', '\\']
  | '\x08' => ['\\', 'b']
  | '\t' => ['\\', 't']
  | '\n' => if long then ['\n'] else ['\\', 'n']
  | '\x0c' => ['\\', 'f']
  | '\r' => ['\\', 'r']
  | _ => if isControl character then ['\\', 'u'] ++ codeDigits character.toNat else [character]

/-- The characters of a basic string. An escaped double quote ends a row of
them. -/
def escapeAll (long : Bool) : (quotes : Nat) → List Char → List Char
  | _, [] => []
  | quotes, character :: text =>
      let plain := character == '\x22' && long && quotes < 2
      escapeBasic long quotes character ++ escapeAll long (if plain then quotes + 1 else 0) text

/-- The written form of a string. A line break stands in front of one that
spans lines. -/
def quoted (value : String) : String :=
  let text := value.toList
  let opening : List Char := if text.contains '\n' then ['\n'] else []
  let around (quote : Char) (count : Nat) (body : List Char) : String :=
    String.ofList (List.replicate count quote ++ body ++ List.replicate count quote)
  match StringForm.of text with
  | .basic => around '\x22' 1 (escapeAll false 0 text)
  | .literal => around '\x27' 1 text
  | .longBasic => around '\x22' 3 (opening ++ escapeAll true 0 text)
  | .longLiteral => around '\x27' 3 (opening ++ text)

/-- A line that gives a key its value. -/
def line (key value : String) : String := key ++ " = " ++ value ++ "\n"

/-- A header and the lines of its table. -/
def tableText (name : String) (lines : List String) : String :=
  "[" ++ name ++ "]\n" ++ String.join lines

end ModuleLang.Toml
