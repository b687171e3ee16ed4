import ModuleLang.Text.Letter

/-!
The parts of TOML texts that hold no values. Every reader gives what it read
together with the rest of the text, and fails without saying where. A line ends
with `\n` or `\r\n`; a lone carriage return has no place in a document.
-/

namespace ModuleLang.Toml

open ModuleLang.Text

def isTab (character : Char) : Bool := character == '\t' || character == ' '

/-- Without the tabs and spaces in front. -/
def skipTabs (text : List Char) : List Char := text.dropWhile isTab

/-- Characters of comments and of all kinds of strings: a tab and whatever is no
control character. -/
def isPlain (character : Char) : Bool :=
  character == '\t' || (0x20 ≤ character.toNat && character.toNat != 0x7f)

/-- What follows a line break. -/
def lineBreak? : List Char → Option (List Char)
  | '\n' :: rest => some rest
  | '\r' :: '\n' :: rest => some rest
  | _ => none

/-- What follows a comment, if there is one. -/
def skipComment : List Char → List Char
  | '#' :: rest => rest.dropWhile isPlain
  | text => text

/-- What follows the end of a line: blanks, a comment, and a line break or the
end of the text. -/
def lineEnd? (text : List Char) : Option (List Char) :=
  match skipComment (skipTabs text) with
  | [] => some []
  | rest => lineBreak? rest

/-- What follows blanks, comments and line breaks. A comment needs the line break
behind it. -/
def skipLines? : (budget : Nat) → List Char → Option (List Char)
  | 0, _ => none
  | budget + 1, text =>
      match skipTabs text with
      | '#' :: rest => (lineBreak? (rest.dropWhile isPlain)).bind (skipLines? budget)
      | '\n' :: rest => skipLines? budget rest
      | '\r' :: rest => (lineBreak? ('\r' :: rest)).bind (skipLines? budget)
      | rest => some rest

/-- Exactly `count` decimal digits. -/
def fixedDigits? (count : Nat) (text : List Char) : Option (List Char × List Char) :=
  let digits := text.take count
  if digits.length = count ∧ digits.all isAsciiDigit then some (digits, text.drop count) else none

/-- What follows a given character. -/
def after? (wanted : Char) : List Char → Option (List Char)
  | character :: rest => if character = wanted then some rest else none
  | [] => none

end ModuleLang.Toml
