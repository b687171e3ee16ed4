import ModuleLang.Literal
import ModuleLang.Position
import ModuleLang.Token.Operator

/-!
Tokens: what a lexeme means, and where it stands. Blanks, comments, indentation
and line ends are tokens too. The first two are skipped within a row, and all
four are trivia, which separates tokens and carries no meaning by itself.
-/

namespace ModuleLang

inductive Keyword
  | moduleWord
  | useWord
  | fnWord
  | ifWord
  | elseWord
  | whileWord
  | returnWord
  | breakWord
  | continueWord
  | newWord
deriving DecidableEq

namespace Keyword

def all : List Keyword :=
  [moduleWord, useWord, fnWord, ifWord, elseWord, whileWord, returnWord, breakWord,
    continueWord, newWord]

def text : Keyword → String
  | moduleWord => "module"
  | useWord => "use"
  | fnWord => "fn"
  | ifWord => "if"
  | elseWord => "else"
  | whileWord => "while"
  | returnWord => "return"
  | breakWord => "break"
  | continueWord => "continue"
  | newWord => "new"

def ofWord? (word : String) : Option Keyword := all.find? fun keyword => keyword.text == word

theorem ofWord?_text (keyword : Keyword) : ofWord? keyword.text = some keyword := by
  cases keyword <;> decide

def name (keyword : Keyword) : String := keyword.text.capitalize

end Keyword

inductive Punctuation
  | openParen
  | closeParen
  | openBrace
  | closeBrace
  | openBracket
  | closeBracket
  | comma
  | dot
deriving DecidableEq

namespace Punctuation

def all : List Punctuation :=
  [openParen, closeParen, openBrace, closeBrace, openBracket, closeBracket, comma, dot]

def character : Punctuation → Char
  | openParen => '('
  | closeParen => ')'
  | openBrace => '\x7b'
  | closeBrace => '\x7d'
  | openBracket => '['
  | closeBracket => ']'
  | comma => ','
  | dot => '.'

def ofChar? (character : Char) : Option Punctuation :=
  all.find? fun punctuation => punctuation.character == character

theorem ofChar?_character (punctuation : Punctuation) :
    ofChar? punctuation.character = some punctuation := by
  cases punctuation <;> decide

def text (punctuation : Punctuation) : String := String.singleton punctuation.character

def name : Punctuation → String
  | openParen => "OpenParen"
  | closeParen => "CloseParen"
  | openBrace => "OpenBrace"
  | closeBrace => "CloseBrace"
  | openBracket => "OpenBracket"
  | closeBracket => "CloseBracket"
  | comma => "Comma"
  | dot => "Dot"

end Punctuation

inductive TokenKind
  | word (name : String)
  | keyword (reserved : Keyword)
  | literal (value : Literal)
  | operator (spelt : Operator)
  | punctuation (mark : Punctuation)
  /-- A run of blanks within a row. -/
  | blank
  /-- One step of indentation at the start of a row. -/
  | indentation
  | comment
  | endOfLine
  /-- A semicolon. -/
  | endOfStatement
  | endOfFile
deriving DecidableEq, Inhabited

namespace TokenKind

/-- Skipped when looking for the next token of the same row. -/
def isInlineTrivia : TokenKind → Bool
  | blank | comment => true
  | _ => false

def isTrivia : TokenKind → Bool
  | blank | comment | indentation | endOfLine => true
  | _ => false

def word? : TokenKind → Option String
  | word name => some name
  | _ => none

def text : TokenKind → String
  | word name => name
  | keyword reserved => reserved.text
  | literal value => value.text
  | operator spelt => spelt.spelling
  | punctuation mark => mark.text
  | blank => "whitespace"
  | indentation => "indentation"
  | comment => "comment"
  | endOfLine => "end of line"
  | endOfStatement => ";"
  | endOfFile => "end of file"

end TokenKind

structure Token where
  kind : TokenKind
  span : Span
deriving DecidableEq, Inhabited

namespace Token

def isTrivia (token : Token) : Bool := token.kind.isTrivia

end Token

end ModuleLang
