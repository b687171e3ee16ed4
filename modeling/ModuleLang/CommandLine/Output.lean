import ModuleLang.CheckedModule
import ModuleLang.CommandLine.Settings
import ModuleLang.Record.Report
import ModuleLang.Tree.Printer

/-!
What commands print. Texts show rows and columns from one and may be coloured;
records are printed as JSON over several lines.
-/

namespace ModuleLang

/-- Colours and weights of a terminal. -/
inductive Style
  | boldRed
  | boldYellow
  | red
  | green
  | yellow
  | cyan
  | dim
deriving DecidableEq

namespace Style

/-- The parameters that select a style. -/
def code : Style → String
  | boldRed => "1;31"
  | boldYellow => "1;33"
  | red => "31"
  | green => "32"
  | yellow => "33"
  | cyan => "36"
  | dim => "2"

/-- A text in a style, if there are colours. -/
def paint (color : Bool) (style : Style) (text : String) : String :=
  if color then "\x1b[" ++ style.code ++ "m" ++ text ++ "\x1b[0m" else text

end Style

def Level.style : Level → Style
  | error => .boldRed
  | warning => .boldYellow
  | info => .cyan

/-- With blanks in front, up to a width. -/
def alignRight (width : Nat) (text : String) : String :=
  String.ofList (List.replicate (width - text.length) ' ') ++ text

/-- With blanks behind, up to a width. -/
def alignLeft (width : Nat) (text : String) : String :=
  text ++ String.ofList (List.replicate (width - text.length) ' ')

/-- Name of the group that a token is listed under. -/
def TokenKind.category : TokenKind → String
  | word _ => "word"
  | keyword _ => "keyword"
  | literal _ => "literal"
  | operator _ => "operator"
  | punctuation _ => "punctuation"
  | blank | indentation | comment => "trivia"
  | endOfLine => "line"
  | endOfStatement => "statement"
  | endOfFile => "eof"

/-- One line about a token. -/
def Token.listing (color : Bool) (token : Token) : String :=
  alignRight 5 (toString (token.span.start.row + 1)) ++ ":" ++
    alignLeft 4 (toString (token.span.start.column + 1)) ++ " " ++
    Style.cyan.paint color (alignLeft 12 token.kind.category) ++ " " ++ token.kind.text ++ "\n"

namespace Diagnostic

/-- One line about a diagnostic. -/
def listing (color : Bool) (diagnostic : Diagnostic) : String :=
  diagnostic.fileName ++ ":" ++ diagnostic.span.start.text ++ ": " ++
    diagnostic.level.style.paint color diagnostic.level.text ++ "[" ++
    Style.dim.paint color diagnostic.code ++ "]: " ++ diagnostic.message ++ "\n"

def listings (color : Bool) (diagnostics : List Diagnostic) : String :=
  String.join (diagnostics.map (listing color))

/-- How many diagnostics of each level there are. Remarks alone are no
problems. -/
def summary (color : Bool) (diagnostics : List Diagnostic) : String :=
  let errors := count .error diagnostics
  let warnings := count .warning diagnostics
  if errors = 0 ∧ warnings = 0 then Style.green.paint color "✓" ++ " No problems found\n"
  else
    let mark := if 0 < errors then Style.red.paint color "✗" else Style.yellow.paint color "!"
    mark ++ " " ++ toString errors ++ " error(s), " ++ toString warnings ++ " warning(s), " ++
      toString (count .info diagnostics) ++ " info\n"

def records (diagnostics : List Diagnostic) : Json := .array (diagnostics.map record)

end Diagnostic

/-- What a command prints, and the diagnostics that decide about its success. -/
structure CommandReport where
  output : String
  diagnostics : List Diagnostic

namespace CommandReport

variable (color : Bool) (fileName text : String)

def jsonText (members : List (String × Json)) : String := (Json.record members).pretty ++ "\n"

/-- The tokens of a text, with or without trivia. -/
def tokens (trivia : Bool) (format : OutputFormat) : CommandReport :=
  let tokenized := Tokenized.ofText text fileName
  let shown := tokenized.tokens.filter fun token => trivia || !token.isTrivia
  let output := match format with
    | .text =>
        String.join (shown.map (Token.listing color)) ++
          Diagnostic.listings color tokenized.diagnostics
    | .json => jsonText
        [("tokens", .array (shown.map Token.record)),
          ("diagnostics", Diagnostic.records tokenized.diagnostics)]
  ⟨output, tokenized.diagnostics⟩

/-- The tree of a text. -/
def parse (format : OutputFormat) : Except InternalError CommandReport := do
  let parsed ← ParsedModule.ofText text fileName
  let tree := (parsed.tree.arena.text? parsed.root).getD ""
  let output := match format with
    | .text => tree ++ "\n" ++ Diagnostic.listings color parsed.diagnostics
    | .json => jsonText
        [("tree", .string tree), ("diagnostics", Diagnostic.records parsed.diagnostics)]
  return ⟨output, parsed.diagnostics⟩

/-- The diagnostics of a checked text, and its tree with types if that is
wanted. -/
def check (host : Host) (wantsTree : Bool) (format : OutputFormat) :
    Except InternalError CommandReport := do
  let checked ← CheckedModule.ofText text fileName host
  let tree := (checked.tree.arena.typedText? checked.root).getD ""
  let output := match format with
    | .text =>
        (if wantsTree then tree ++ "\n" else "") ++
          Diagnostic.listings color checked.diagnostics ++
          Diagnostic.summary color checked.diagnostics
    | .json => jsonText
        ((if wantsTree then [("tree", .string tree)] else []) ++
          [("diagnostics", Diagnostic.records checked.diagnostics)])
  return ⟨output, checked.diagnostics⟩

end CommandReport

end ModuleLang
