import ModuleLang.Parsing.Basic

/-!
Written types: a name and array suffixes. A suffix opens with a bracket behind
which a comma or the closing bracket stands; any other bracket is an indexer and
is left alone. Ranks above 255 are refused.
-/

namespace ModuleLang.Parser

/-- Largest rank that can be written. -/
def rankLimit : Nat := 255

def atRankSuffix (context : ParsingContext) : Bool :=
  let next := (context.cursor.peek 1).kind
  context.atPunctuation .openBracket &&
    (next == .punctuation .closeBracket || next == .punctuation .comma)

/-- Moves past commas and counts them. -/
def commas : (budget : Nat) → Parser Nat
  | 0 => throw .exhausted
  | budget + 1 => do
      if ← accept .comma then return (← commas budget) + 1
      else return 0

/-- Reads array suffixes behind those that gave `ranks`. -/
def rankSuffixes : (budget : Nat) → (ranks : List Nat) → Parser (Option (List Nat))
  | 0, _ => throw .exhausted
  | budget + 1, ranks => do
      if !atRankSuffix (← context) then return some ranks
      let opening := (← current).span.start
      advance
      let rank := (← commas (← remaining)) + 1
      if !(← accept .closeBracket) then
        reportHere .expectedCloseBracket
        return none
      if rankLimit < rank then
        let span ← SourceTree.ofExcept (Span.forReport opening (← previousEnd))
        report (.arrayRankTooLarge rank) span
        return none
      rankSuffixes budget (ranks ++ [rank])

/-- `name`, `name[]`, `name[,]`, `name[][]` and so on. -/
def type : Parser (Option NodeId) := do
  let start := (← current).span.start
  let some name ← word?
    | do
      reportHere .expectedTypeName
      return none
  let some ranks ← rankSuffixes (← remaining) [] | return none
  return some (← finish (.typeRef name ranks) start)

/-- Whether a node is the written form of a built-in type or of an array of
one. -/
def namesBuiltin (node : NodeId) : Parser Bool := do
  match ← kind? node with
  | some (.typeRef name _) => return (Ty.builtin? name).isSome
  | _ => return false

end ModuleLang.Parser
