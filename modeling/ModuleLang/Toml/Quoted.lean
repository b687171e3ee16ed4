import ModuleLang.Json.Reader
import ModuleLang.Toml.Lexical

/-!
TOML strings. Basic strings stand between double quotes and know escapes,
literal strings stand between single quotes and take every character as it is.
Either may be written between three quotes to span lines: then a first line break
does not count, every line break is `\n`, and up to two quotes may stand in front
of the closing ones.
-/

namespace ModuleLang.Toml

/-- Value of exactly `count` hexadecimal digits, as a character. -/
def codePoint? (count : Nat) (text : List Char) : Option (Char × List Char) := do
  if text.length < count then none
  else
    let digits ← (text.take count).mapM Json.hexDigit?
    let character ← Json.scalar? (digits.foldl (fun value digit => 16 * value + digit) 0)
    return (character, text.drop count)

/-- What stands behind a backslash. -/
def escape? : List Char → Option (Char × List Char)
  | 'b' :: rest => some ('\x08', rest)
  | 't' :: rest => some ('\t', rest)
  | 'n' :: rest => some ('\n', rest)
  | 'f' :: rest => some ('\x0c', rest)
  | 'r' :: rest => some ('\r', rest)
  | '\x22' :: rest => some ('\x22', rest)
  | '\\' :: rest => some ('\\', rest)
  | 'u' :: rest => codePoint? 4 rest
  | 'U' :: rest => codePoint? 8 rest
  | _ => none

/-- A basic string behind its opening quote. Characters in `read` come first and
are given backwards. -/
def basicBody? : (budget : Nat) → (read : List Char) → List Char → Option (String × List Char)
  | 0, _, _ => none
  | _ + 1, _, [] => none
  | _ + 1, read, '\x22' :: rest => some (String.ofList read.reverse, rest)
  | budget + 1, read, '\\' :: rest => do
      let (character, rest) ← escape? rest
      basicBody? budget (character :: read) rest
  | budget + 1, read, character :: rest =>
      if isPlain character then basicBody? budget (character :: read) rest else none

/-- A literal string behind its opening quote. -/
def literalBody? (text : List Char) : Option (String × List Char) :=
  let body := text.takeWhile fun character => isPlain character && character != '\x27'
  (after? '\x27' (text.drop body.length)).map fun rest => (String.ofList body, rest)

/-- What follows all line breaks and blanks. -/
def skipFolded : (budget : Nat) → List Char → List Char
  | 0, text => text
  | budget + 1, text =>
      match skipTabs text with
      | '\n' :: rest => skipFolded budget rest
      | '\r' :: '\n' :: rest => skipFolded budget rest
      | rest => rest

/-- What follows an escaped line break: the blanks around it and all further
line breaks and blanks. -/
def foldedLines? (text : List Char) : Option (List Char) :=
  (lineBreak? (skipTabs text)).map fun rest => skipFolded (rest.length + 1) rest

/-- Number of closing quotes that belong to the text, of a row of them that
closes a string. -/
def innerQuotes (row : Nat) : Nat := min (row - 3) 2

/-- A string between three `quote`s, behind the opening ones. Only strings with
`escapes` know the backslash. -/
def longBody? (quote : Char) (escapes : Bool) : (budget : Nat) → (read : List Char) →
    List Char → Option (String × List Char)
  | 0, _, _ => none
  | _ + 1, _, [] => none
  | budget + 1, read, character :: rest =>
      let text := character :: rest
      if character = quote then
        let row := (text.takeWhile (· == quote)).length
        if row < 3 then longBody? quote escapes budget (quote :: read) rest
        else
          let inner := innerQuotes row
          some (String.ofList (List.replicate inner quote ++ read).reverse, text.drop (inner + 3))
      else if escapes && character == '\\' then
        match foldedLines? rest with
        | some rest => longBody? quote escapes budget read rest
        | none => do
            let (character, rest) ← escape? rest
            longBody? quote escapes budget (character :: read) rest
      else
        match lineBreak? text with
        | some rest => longBody? quote escapes budget ('\n' :: read) rest
        | none =>
            if isPlain character then longBody? quote escapes budget (character :: read) rest
            else none

/-- A string between three quotes, behind the opening ones. -/
def longString? (quote : Char) (escapes : Bool) (text : List Char) : Option (String × List Char) :=
  longBody? quote escapes (text.length + 1) [] ((lineBreak? text).getD text)

/-- A string that does not span lines. -/
def shortString? : List Char → Option (String × List Char)
  | '\x22' :: rest => basicBody? (rest.length + 1) [] rest
  | '\x27' :: rest => literalBody? rest
  | _ => none

/-- A string of any kind. -/
def string? : List Char → Option (String × List Char)
  | '\x22' :: '\x22' :: '\x22' :: rest => longString? '\x22' true rest
  | '\x27' :: '\x27' :: '\x27' :: rest => longString? '\x27' false rest
  | text => shortString? text

end ModuleLang.Toml
