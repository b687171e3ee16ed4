import ModuleLang.Token.Lexeme

/-!
The tokens of one text, closed by an end-of-file token, and how they are read
from the text: its lexemes follow each other without a gap, and the reference
walk over their characters gives every token and every fault its span.
-/

namespace ModuleLang

/-- Tokens that close with an end-of-file token. -/
structure TokenSequence where
  tokens : Array Token
  terminated : tokens.back?.map Token.kind = some .endOfFile

namespace TokenSequence

/-- Closes a list of tokens, unless it already closes with an end-of-file token.
The new token stands at the end of the last one, or at the start of an empty
text. -/
def ofTokens (tokens : Array Token) : TokenSequence :=
  if closed : tokens.back?.map Token.kind = some .endOfFile then ⟨tokens, closed⟩
  else
    let place := (tokens.back?.map fun token => token.span.stop).getD .start
    ⟨tokens.push ⟨.endOfFile, .point place⟩, by simp⟩

instance : Inhabited TokenSequence := ⟨ofTokens #[]⟩

def size (sequence : TokenSequence) : Nat := sequence.tokens.size

theorem size_pos (sequence : TokenSequence) : 0 < sequence.size := by
  obtain ⟨tokens, terminated⟩ := sequence
  simp only [size]
  rcases Nat.eq_zero_or_pos tokens.size with empty | positive
  · simp [Array.eq_empty_of_size_eq_zero empty] at terminated
  · exact positive

/-- Whether nothing stands before the end-of-file token. -/
def isEmpty (sequence : TokenSequence) : Bool := sequence.size ≤ 1

/-- Token at an index; indices past the end stay at the end-of-file token. -/
def get (sequence : TokenSequence) (index : Nat) : Token :=
  have bound : min index (sequence.size - 1) < sequence.tokens.size :=
    Nat.lt_of_le_of_lt (Nat.min_le_right _ _) (Nat.sub_lt sequence.size_pos Nat.one_pos)
  sequence.tokens[min index (sequence.size - 1)]

end TokenSequence

/-- Where a walk over a text stands. -/
structure Reading where
  position : Position
  text : List Char

namespace Reading

def advance (reading : Reading) (count : Nat) : Reading :=
  let (position, text) := reading.position.walk count reading.text
  ⟨position, text⟩

theorem le_advance (reading : Reading) (count : Nat) :
    reading.position ≤ (reading.advance count).position :=
  Position.le_walk count reading.position reading.text

/-- Span of the next `count` characters. -/
def span (reading : Reading) (count : Nat) : Span :=
  ⟨reading.position, (reading.advance count).position, reading.le_advance count⟩

end Reading

/-- What reading a text gives. -/
structure Tokenized where
  tokens : List Token
  diagnostics : List Diagnostic

namespace Tokenized

/-- Spans of lexemes and their faults. The end-of-file token stands where the
last lexeme ends. -/
def locate (fileName : String) (reading : Reading) : List Lexeme → Tokenized
  | [] => ⟨[⟨.endOfFile, .point reading.position⟩], []⟩
  | lexeme :: lexemes =>
      let rest := locate fileName (reading.advance lexeme.length) lexemes
      let token := lexeme.meaning.map fun kind => Token.mk kind (reading.span lexeme.length)
      let faults := lexeme.faults.map fun fault =>
        Diagnostic.mk fault.kind
          ((reading.advance fault.start).span (fault.stop - fault.start)) fileName
      ⟨token.toList ++ rest.tokens, faults ++ rest.diagnostics⟩

/-- Reads a text. -/
def ofText (text fileName : String) : Tokenized :=
  locate fileName ⟨.start, text.toList⟩ (Lexeme.ofText text.toList)

def sequence (tokenized : Tokenized) : TokenSequence :=
  TokenSequence.ofTokens tokenized.tokens.toArray

end Tokenized

end ModuleLang
