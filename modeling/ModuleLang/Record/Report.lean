import ModuleLang.Diagnostic
import ModuleLang.Record.Value
import ModuleLang.Token

/-!
Records of tokens and diagnostics. Rows and columns count from zero, as
positions do.
-/

namespace ModuleLang

def Position.record (position : Position) : Json :=
  .record [("row", .nat position.row), ("col", .nat position.column)]

def Diagnostic.record (diagnostic : Diagnostic) : Json :=
  .record
    [("code", .string diagnostic.code), ("level", .string diagnostic.level.name),
      ("message", .string diagnostic.message),
      ("startPosition", diagnostic.span.start.record),
      ("endPosition", diagnostic.span.stop.record), ("fileName", .string diagnostic.fileName)]

def TokenKind.record : TokenKind → Json
  | word name => .record [("Word", .string name)]
  | keyword reserved => .record [("Keyword", .string reserved.name)]
  | literal value => .record [("Literal", value.record)]
  | operator spelt => .record [("Operator", .string spelt.name)]
  | punctuation mark => .record [("Punctuation", .string mark.name)]
  | blank => .string "WhiteSpace"
  | indentation => .string "Scope"
  | comment => .string "Comment"
  | endOfLine => .string "EndOfLine"
  | endOfStatement => .string "EndOfStatement"
  | endOfFile => .string "EndOfFile"

def Token.record (token : Token) : Json :=
  .record
    [("kind", token.kind.record), ("start", token.span.start.record),
      ("end", token.span.stop.record)]

end ModuleLang
