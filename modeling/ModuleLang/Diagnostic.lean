import ModuleLang.Position

/-!
Reports about a source text. A report never stops the work on a text. Codes are
grouped by stage and are the part that tools may rely on; the level of a report
and its message follow from its kind.
-/

namespace ModuleLang

inductive Level
  | info
  | warning
  | error
deriving DecidableEq

namespace Level

def text : Level → String
  | info => "info"
  | warning => "warning"
  | error => "error"

def name (level : Level) : String := level.text.capitalize

end Level

inductive DiagnosticKind
  -- lexemes
  | unterminatedString
  | invalidEscape (letter : Char)
  | unexpectedCharacter (character : Char)
  | invalidNumber (lexeme : String)
  | invalidChar
  -- grammar
  | expectedToken (wanted : String)
  | expectedExpression
  | expectedParameter
  | expectedCloseParen
  | expectedCloseBracket
  | expectedFunctionName
  | expectedModuleName
  | expectedTypeName
  | unexpectedTopLevelToken
  | expectedEndOfStatement
  | invalidStatement
  | arrayRankTooLarge (rank : Nat)
  -- meaning
  | cannotFindMember (name : String)
  | cannotApplyOperator (symbol : String)
  | cannotAssign (source target : String)
  | cannotAssignNone
  | unknownFunction (name : String)
  | returnValueMissing
  | cannotReturnValue
  | returnTypeMismatch (expected found : String)
  | predicateMustBeBool
  | indexMustBeInteger
  | indexerNotApplicable (type : String)
  | duplicateVariable (name : String)
  | duplicateParameter (name : String)
  | duplicateMember (name : String)
  | moduleMissing
  | duplicateModule
  | memberNamedAsModule (name : String)
  | notAllPathsReturn
  | typeNotFound (name : String)
  | cannotCast (source target : String)
  | multiDimensionalIndexer
  | jumpOutsideLoop (keyword : String)
  | duplicateImport (path : String)
  | unreachableCode
deriving DecidableEq

namespace DiagnosticKind

def code : DiagnosticKind → String
  | unterminatedString => "TOK1001"
  | invalidEscape _ => "TOK1002"
  | unexpectedCharacter _ => "TOK1003"
  | invalidNumber _ => "TOK1004"
  | invalidChar => "TOK1005"
  | expectedToken _ => "PRS1001"
  | expectedExpression => "PRS1002"
  | expectedParameter => "PRS1003"
  | expectedCloseParen => "PRS1004"
  | expectedCloseBracket => "PRS1005"
  | expectedFunctionName => "PRS1006"
  | expectedModuleName => "PRS1007"
  | expectedTypeName => "PRS1008"
  | unexpectedTopLevelToken => "PRS1009"
  | expectedEndOfStatement => "PRS1010"
  | invalidStatement => "PRS1011"
  | arrayRankTooLarge _ => "PRS1012"
  | cannotFindMember _ => "SEM1001"
  | cannotApplyOperator _ => "SEM1002"
  | cannotAssign .. => "SEM1003"
  | cannotAssignNone => "SEM1004"
  | unknownFunction _ => "SEM1005"
  | returnValueMissing => "SEM1006"
  | cannotReturnValue => "SEM1007"
  | returnTypeMismatch .. => "SEM1008"
  | predicateMustBeBool => "SEM1009"
  | indexMustBeInteger => "SEM1010"
  | indexerNotApplicable _ => "SEM1011"
  | duplicateVariable _ => "SEM1012"
  | duplicateParameter _ => "SEM1013"
  | duplicateMember _ => "SEM1014"
  | moduleMissing => "SEM1015"
  | duplicateModule => "SEM1016"
  | memberNamedAsModule _ => "SEM1017"
  | notAllPathsReturn => "SEM1018"
  | typeNotFound _ => "SEM1019"
  | cannotCast .. => "SEM1020"
  | multiDimensionalIndexer => "SEM1021"
  | jumpOutsideLoop _ => "SEM1022"
  | duplicateImport _ => "SEM1023"
  | unreachableCode => "SEM1024"

/-- Everything is an error but three kinds: an indexer that is not supported yet
and a repeated import are warnings, and unreachable code is only mentioned. -/
def level : DiagnosticKind → Level
  | multiDimensionalIndexer | duplicateImport _ => .warning
  | unreachableCode => .info
  | _ => .error

def message : DiagnosticKind → String
  | unterminatedString => "Unterminated string literal"
  | invalidEscape letter => "Invalid escape sequence '\\" ++ letter.toString ++ "'"
  | unexpectedCharacter character => "Unexpected character '" ++ character.toString ++ "'"
  | invalidNumber lexeme => "Invalid number literal '" ++ lexeme ++ "'"
  | invalidChar => "Invalid char literal"
  | expectedToken wanted => "Expected '" ++ wanted ++ "'"
  | expectedExpression => "Expected expression"
  | expectedParameter => "Expected argument definition"
  | expectedCloseParen => "Expected close paren"
  | expectedCloseBracket => "Expected close bracket"
  | expectedFunctionName => "Expected function name"
  | expectedModuleName => "Expected module name"
  | expectedTypeName => "Expected type name"
  | unexpectedTopLevelToken => "Unexpected token at top level"
  | expectedEndOfStatement => "Expected end of statement"
  | invalidStatement => "Invalid statement"
  | arrayRankTooLarge rank => "Array rank " ++ toString rank ++ " is too large"
  | cannotFindMember name => "Cannot find member '" ++ name ++ "'"
  | cannotApplyOperator symbol => "Cannot apply operator '" ++ symbol ++ "'"
  | cannotAssign source target => "Cannot assign '" ++ source ++ "' to '" ++ target ++ "'"
  | cannotAssignNone => "Cannot assign an expression without a value"
  | unknownFunction name => "Unknown function '" ++ name ++ "'"
  | returnValueMissing => "Return value is missing"
  | cannotReturnValue => "Cannot return a value from a function without a return type"
  | returnTypeMismatch expected found =>
      "Return type mismatch: expected '" ++ expected ++ "', found '" ++ found ++ "'"
  | predicateMustBeBool => "Predicate must be of type bool"
  | indexMustBeInteger => "Indexer value must be an integer"
  | indexerNotApplicable type => "Indexer is not applicable to '" ++ type ++ "'"
  | duplicateVariable name => "Variable '" ++ name ++ "' is already defined"
  | duplicateParameter name => "Duplicate parameter name '" ++ name ++ "'"
  | duplicateMember name => "Duplicate member name '" ++ name ++ "'"
  | moduleMissing => "Module definition is missing"
  | duplicateModule => "Module is already defined"
  | memberNamedAsModule name => "Member '" ++ name ++ "' has the same name as its module"
  | notAllPathsReturn => "Not all code paths return a value"
  | typeNotFound name => "Type '" ++ name ++ "' not found"
  | cannotCast source target => "Cannot cast '" ++ source ++ "' to '" ++ target ++ "'"
  | multiDimensionalIndexer => "Multi-dimensional indexers are not supported"
  | jumpOutsideLoop keyword => "'" ++ keyword ++ "' is only valid inside a loop"
  | duplicateImport path => "Module '" ++ path ++ "' is already imported"
  | unreachableCode => "Unreachable code"

end DiagnosticKind

structure Diagnostic where
  kind : DiagnosticKind
  span : Span
  fileName : String
deriving DecidableEq

namespace Diagnostic

def code (diagnostic : Diagnostic) : String := diagnostic.kind.code

def level (diagnostic : Diagnostic) : Level := diagnostic.kind.level

def message (diagnostic : Diagnostic) : String := diagnostic.kind.message

def isError (diagnostic : Diagnostic) : Bool := diagnostic.level == .error

/-- One line: file, first position, level, code and message. -/
def text (diagnostic : Diagnostic) : String :=
  diagnostic.fileName ++ ":" ++ diagnostic.span.start.text ++ ": " ++ diagnostic.level.text ++
    " " ++ diagnostic.code ++ ": " ++ diagnostic.message

def hasErrors (diagnostics : List Diagnostic) : Bool := diagnostics.any isError

/-- How many diagnostics have a level. -/
def count (level : Level) (diagnostics : List Diagnostic) : Nat :=
  (diagnostics.filter fun diagnostic => diagnostic.level == level).length

/-- Whether diagnostics fail a run: errors do, and warnings when asked to. -/
def fail (warningsAsErrors : Bool) (diagnostics : List Diagnostic) : Bool :=
  diagnostics.any fun diagnostic =>
    diagnostic.level == .error || (warningsAsErrors && diagnostic.level == .warning)

end Diagnostic

end ModuleLang
