import ModuleLang.Toml.Document
import ModuleLang.Toml.Number
import ModuleLang.Toml.Quoted

/-!
Reading TOML documents line by line. Arrays span lines, inline tables do not.
How many parts a key has, and how many arrays and inline tables lie within each
other, is limited.
-/

namespace ModuleLang.Toml

open ModuleLang.Text

/-- Largest number of parts of a key, and of values within each other. -/
def depthLimit : Nat := 79

def isBareKeyPart (character : Char) : Bool :=
  isAsciiLetter character || isAsciiDigit character || character == '-' || character == '_'

/-- One part of a key: a string or a bare word. -/
def keyPart? (text : List Char) : Option (String × List Char) :=
  match text with
  | '\x22' :: _ | '\x27' :: _ => shortString? text
  | _ =>
      let word := text.takeWhile isBareKeyPart
      if word.isEmpty then none else some (String.ofList word, text.drop word.length)

/-- Parts of a key with points between them, up to and without the last one, and
the last one. Blanks may stand around every part. -/
def key? : (budget : Nat) → List Char → Option ((List String × String) × List Char)
  | 0, _ => none
  | budget + 1, text => do
      let (part, rest) ← keyPart? (skipTabs text)
      match skipTabs rest with
      | '.' :: rest =>
          let ((path, last), rest) ← key? budget rest
          return ((part :: path, last), rest)
      | rest => return (([], part), rest)

def bool? : List Char → Option (Toml × List Char)
  | 't' :: 'r' :: 'u' :: 'e' :: rest => some (bool true, rest)
  | 'f' :: 'a' :: 'l' :: 's' :: 'e' :: rest => some (bool false, rest)
  | _ => none

mutual

/-- A value at a depth, and what follows it. -/
def value? : (budget : Nat) → (depth : Nat) → List Char → Option (Toml × List Char)
  | 0, _, _ => none
  | budget + 1, depth, text =>
      match text with
      | '\x22' :: _ | '\x27' :: _ => (string? text).map fun part => (string part.1, part.2)
      | '[' :: rest =>
          if depthLimit ≤ depth then none else items? budget (depth + 1) [] rest
      | '\x7b' :: rest =>
          if depthLimit ≤ depth then none
          else
            match skipTabs rest with
            | '\x7d' :: rest => some (table [], rest)
            | rest => pairs? budget (depth + 1) [] rest
      | _ => bool? text <|> number? text

/-- Items of an array behind those in `items`, which are given backwards, up to
the closing bracket. -/
def items? : (budget : Nat) → (depth : Nat) → (items : List Toml) → List Char →
    Option (Toml × List Char)
  | 0, _, _, _ => none
  | budget + 1, depth, items, text => do
      match ← skipLines? (text.length + 1) text with
      | ']' :: rest => return (array items.reverse, rest)
      | rest =>
          let (item, rest) ← value? budget depth rest
          match ← skipLines? (rest.length + 1) rest with
          | ',' :: rest => items? budget depth (item :: items) rest
          | ']' :: rest => return (array (item :: items).reverse, rest)
          | _ => none

/-- Assignments of an inline table behind those in `pairs`, which are given
backwards, up to the closing brace. -/
def pairs? : (budget : Nat) → (depth : Nat) → (pairs : List (List String × String × Toml)) →
    List Char → Option (Toml × List Char)
  | 0, _, _, _ => none
  | budget + 1, depth, pairs, text => do
      let ((path, key), rest) ← key? depthLimit text
      let rest ← after? '=' rest
      let (value, rest) ← value? budget depth (skipTabs rest)
      let pairs := (path, key, value) :: pairs
      match skipTabs rest with
      | ',' :: rest => pairs? budget depth pairs rest
      | '\x7d' :: rest => return (← inlineTable? pairs.reverse, rest)
      | _ => none

end

/-- A header behind its opening brackets: a key, the closing brackets and the end
of the line. -/
def header? (brackets : Nat) (text : List Char) :
    Option ((List String × String) × List Char) := do
  let (key, rest) ← key? depthLimit text
  if rest.take brackets = List.replicate brackets ']' then
    return (key, ← lineEnd? (rest.drop brackets))
  else none

def assignment? (text : List Char) : Option (Line × List Char) := do
  let ((path, key), rest) ← key? depthLimit text
  let rest ← after? '=' rest
  let (value, rest) ← value? (rest.length + 1) 0 (skipTabs rest)
  return (.assignment path key value, ← lineEnd? rest)

/-- One line, which is not empty. -/
def line? (text : List Char) : Option (Line × List Char) :=
  match skipTabs text with
  | [] => some (.blank, [])
  | '#' :: rest => (lineEnd? ('#' :: rest)).map fun rest => (.blank, rest)
  | '\n' :: rest => some (.blank, rest)
  | '\r' :: rest => (lineBreak? ('\r' :: rest)).map fun rest => (.blank, rest)
  | '[' :: '[' :: rest => (header? 2 rest).map fun part => (.element part.1.1 part.1.2, part.2)
  | '[' :: rest => (header? 1 rest).map fun part => (.table part.1.1 part.1.2, part.2)
  | rest => assignment? rest

def lines? : (budget : Nat) → List Char → Option (List Line)
  | 0, _ => none
  | _ + 1, [] => some []
  | budget + 1, text => do
      let (line, rest) ← line? text
      return line :: (← lines? budget rest)

/-- The table that a document writes. A byte order mark in front does not
count. -/
def ofText? (text : String) : Option Toml := do
  let text := match text.toList with
    | '\ufeff' :: rest => rest
    | text => text
  Document.ofLines? (← lines? (text.length + 1) text)

end ModuleLang.Toml
