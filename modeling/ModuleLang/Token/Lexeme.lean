import ModuleLang.Diagnostic
import ModuleLang.Token
import ModuleLang.Token.Number

/-!
Lexemes: the pieces that a text falls into. A lexeme knows how many characters
it takes, the token that it means and what is wrong with it. Reading never
fails: a malformed lexeme gets the closest token and a fault, and a character
that begins no token is a lexeme of its own without a token.
-/

namespace ModuleLang

open ModuleLang.Text

/-- A fault inside a lexeme. Offsets count characters from its start. -/
structure Fault where
  kind : DiagnosticKind
  start : Nat
  stop : Nat
deriving DecidableEq

structure Lexeme where
  /-- Number of characters. -/
  length : Nat
  meaning : Option TokenKind
  faults : List Fault
deriving DecidableEq

namespace Lexeme

/-- A lexeme without faults. -/
def plain (length : Nat) (meaning : TokenKind) : Lexeme := ⟨length, some meaning, []⟩

def isWordStart (character : Char) : Bool := isAlphabetic character || character == '_'

def isWordPart (character : Char) : Bool := isAlphanumeric character || character == '_'

def isInlineBlank (character : Char) : Bool := isBlank character && !isLineBreak character

/-- One step of indentation: a tab or four spaces. -/
def indentationLength? : List Char → Option Nat
  | '\t' :: _ => some 1
  | ' ' :: ' ' :: ' ' :: ' ' :: _ => some 4
  | _ => none

/-- The token of a word: a literal, a keyword or a name. -/
def wordMeaning (word : String) : TokenKind :=
  match word with
  | "true" => .literal (.bool true)
  | "false" => .literal (.bool false)
  | "null" => .literal .null
  | _ => match Keyword.ofWord? word with
    | some reserved => .keyword reserved
    | none => .word word

def escapeFaults (body : QuotedBody) : List Fault :=
  body.unknown.map fun entry => ⟨.invalidEscape entry.2, entry.1, entry.1 + 2⟩

/-- The string behind an opening quote. It may span rows and ends at the end of
the input if nothing closes it. -/
def readString (rest : List Char) : Lexeme :=
  let body := readQuoted stringQuote true 1 rest
  let unclosed : List Fault := if body.closed then [] else [⟨.unterminatedString, 0, body.stop⟩]
  ⟨body.stop, some (.literal (.string (String.ofList body.value))), escapeFaults body ++ unclosed⟩

/-- The character behind an opening quote. Exactly one character must stand
before the closing quote; otherwise the literal is the zero character. -/
def readChar (rest : List Char) : Lexeme :=
  let body := readQuoted charQuote false 1 rest
  match body.closed, body.value with
  | true, [character] => ⟨body.stop, some (.literal (.char character)), escapeFaults body⟩
  | _, _ =>
      ⟨body.stop, some (.literal (.char '\x00')),
        escapeFaults body ++ [⟨.invalidChar, 0, body.stop⟩]⟩

def readNumber (text : List Char) : Lexeme :=
  let lexeme := Number.lexeme false text
  match Number.read lexeme with
  | .ok value => plain lexeme.length (.literal value)
  | .error fallback =>
      ⟨lexeme.length, some (.literal fallback),
        [⟨.invalidNumber (String.ofList lexeme), 0, lexeme.length⟩]⟩

def readWord (text : List Char) : Lexeme :=
  let word := text.takeWhile isWordPart
  plain word.length (wordMeaning (String.ofList word))

/-- Punctuation, the longest operator, or a character that begins no token. -/
def readSymbol (first : Char) (text : List Char) : Lexeme :=
  match Punctuation.ofChar? first with
  | some mark => plain 1 (.punctuation mark)
  | none =>
      match Operator.leading? text with
      | some (length, spelt) => plain length (.operator spelt)
      | none => ⟨1, none, [⟨.unexpectedCharacter first, 0, 1⟩]⟩

/-- The lexeme that begins a text with a first character, away from the
indentation of a row. -/
def read (first : Char) (rest : List Char) : Lexeme :=
  let text := first :: rest
  if first = '\n' then plain 1 .endOfLine
  else if first = '\r' then plain (if rest.head? = some '\n' then 2 else 1) .endOfLine
  else if isBlank first then plain (text.takeWhile isInlineBlank).length .blank
  else if first = '/' ∧ rest.head? = some '/' then
    plain (text.takeWhile fun character => !isLineBreak character).length .comment
  else if first = ';' then plain 1 .endOfStatement
  else if first = stringQuote then readString rest
  else if first = charQuote then readChar rest
  else if isAsciiDigit first then readNumber text
  else if isWordStart first then readWord text
  else readSymbol first text

/-- All lexemes of a text. Indentation is looked for where a row begins, and
again behind every step of it; a row begins behind the lexeme of a line end. No
lexeme is empty, so `budget` need not exceed the number of characters. -/
def readAll : (budget : Nat) → (rowStart : Bool) → List Char → List Lexeme
  | 0, _, _ => []
  | _ + 1, _, [] => []
  | budget + 1, rowStart, first :: rest =>
      match if rowStart then indentationLength? (first :: rest) else none with
      | some length =>
          plain length .indentation :: readAll budget true ((first :: rest).drop length)
      | none =>
          let lexeme := read first rest
          lexeme :: readAll budget (lexeme.meaning == some .endOfLine)
            ((first :: rest).drop lexeme.length)

/-- The lexemes of a whole text. -/
def ofText (text : List Char) : List Lexeme := readAll text.length true text

end Lexeme

end ModuleLang
