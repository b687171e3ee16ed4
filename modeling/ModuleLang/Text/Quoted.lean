import ModuleLang.Text.Character
import ModuleLang.Text.Escaped

/-!
Quoted texts. Writing a text between quotes replaces the enclosing quote, the
backslash and the control characters that have a letter by a backslash and that
letter, and every other character that cannot be shown by its code point in
hexadecimal. Reading knows the letters only, so writing and reading agree on
texts whose characters can be shown or have a letter.
-/

namespace ModuleLang.Text

def stringQuote : Char := '\x22'

def charQuote : Char := '\x27'

/-- Letters behind a backslash and the characters that they stand for. -/
def escapes : List (Char × Char) :=
  [('n', '\n'), ('t', '\t'), ('r', '\r'), ('0', '\x00'), ('\\', '\\'),
    (stringQuote, stringQuote), (charQuote, charQuote)]

/-- What a letter behind a backslash stands for. -/
def unescape? (letter : Char) : Option Char := escapes.lookup letter

/-- The letter that stands for a character behind a backslash. -/
def escapeLetter? (character : Char) : Option Char :=
  (escapes.find? fun entry => entry.2 == character).map Prod.fst

theorem unescape?_of_escapeLetter? {character letter : Char}
    (found : escapeLetter? character = some letter) : unescape? letter = some character := by
  simp only [escapeLetter?, Option.map_eq_some_iff] at found
  obtain ⟨entry, located, rfl⟩ := found
  have same := List.find?_some located
  have member := List.mem_of_find?_eq_some located
  simp only [escapes, List.mem_cons, List.not_mem_nil, or_false] at member
  simp only [beq_iff_eq] at same
  rcases member with rfl | rfl | rfl | rfl | rfl | rfl | rfl <;> subst same <;> rfl

/-- A code point between braces, in lower-case hexadecimal digits. -/
def codePointForm (character : Char) : List Char :=
  ['\\', 'u', '\x7b'] ++ Nat.toDigits 16 character.toNat ++ ['\x7d']

/-- One character as it stands inside quotes. Of the two quotes only the
enclosing one needs its backslash. -/
def encodeChar (quote character : Char) : List Char :=
  if character != quote && (character == stringQuote || character == charQuote) then [character]
  else
    match escapeLetter? character with
    | some letter => ['\\', letter]
    | none => if isEscaped character then codePointForm character else [character]

/-- A text between `quote`s. -/
def encode (quote : Char) (text : List Char) : List Char :=
  quote :: text.flatMap (encodeChar quote) ++ [quote]

def quotedString (text : String) : String := String.ofList (encode stringQuote text.toList)

def quotedChar (character : Char) : String := String.ofList (encode charQuote [character])

/-- How far the reading of a quoted text came, and what it read. Offsets count
characters from the start of the lexeme. -/
structure QuotedBody where
  /-- Offset of the first character that was not read. -/
  stop : Nat
  value : List Char
  /-- Escapes without a meaning: the offset of the backslash, and the letter,
  which stays in the value. -/
  unknown : List (Nat × Char)
  closed : Bool

namespace QuotedBody

def push (character : Char) (body : QuotedBody) : QuotedBody :=
  { body with value := character :: body.value }

def pushUnknown (offset : Nat) (letter : Char) (body : QuotedBody) : QuotedBody :=
  { body with value := letter :: body.value, unknown := (offset, letter) :: body.unknown }

end QuotedBody

/-- Reads the characters behind an opening quote, which begin at `offset`, up to
and with the closing one. A text that may not span rows stops in front of a line
break, though an escaped line break is read; a backslash that ends the input
stands for nothing. -/
def readQuoted (quote : Char) (spansRows : Bool) (offset : Nat) : List Char → QuotedBody
  | [] => ⟨offset, [], [], false⟩
  | ['\\'] => ⟨offset + 1, [], [], false⟩
  | '\\' :: letter :: rest =>
      let body := readQuoted quote spansRows (offset + 2) rest
      match unescape? letter with
      | some character => body.push character
      | none => body.pushUnknown offset letter
  | character :: rest =>
      if character = quote then ⟨offset + 1, [], [], true⟩
      else if !spansRows && isLineBreak character then ⟨offset, [], [], false⟩
      else (readQuoted quote spansRows (offset + 1) rest).push character

end ModuleLang.Text
