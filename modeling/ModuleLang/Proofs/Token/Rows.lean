import ModuleLang.Proofs.Token.Layout
import ModuleLang.Proofs.Token.Letter

/-!
Rows of a text. A step of indentation is read only where a row begins or behind another
step, so that no other token stands right in front of one. Whatever is read some rows
further down has its place there: positions, spans, tokens and reports.
-/

namespace ModuleLang

namespace TokenSequence

/-- Steps of indentation stand only at the front of a row. -/
def Indents (sequence : TokenSequence) : Prop :=
  ∀ index, index + 1 < sequence.size → (sequence.get (index + 1)).kind = .indentation →
    (sequence.get index).kind = .endOfLine ∨ (sequence.get index).kind = .indentation

theorem get_of_list {sequence : TokenSequence} {index : Nat} (bound : index < sequence.size) :
    sequence.tokens.toList[index]? = some (sequence.get index) := by
  have inside : index < sequence.tokens.size := bound
  rw [get_of_bound inside, Array.getElem?_toList, Array.getElem?_eq_getElem inside]

end TokenSequence

namespace Cursor

theorem row_start_le (sequence : TokenSequence) (index : Nat) :
    rowStart sequence index ≤ index := by
  induction index with
  | zero => exact Nat.le_refl _
  | succ index ih =>
      unfold rowStart
      split
      · exact Nat.le_refl _
      · exact Nat.le_succ_of_le ih

end Cursor

namespace TokenKind

/-- Kinds among which a step of indentation stands only at the front of a row; `rowStart`
tells whether the first one does. -/
def Stepped (rowStart : Bool) : List TokenKind → Prop
  | [] => True
  | kind :: kinds => (kind = .indentation → rowStart = true) ∧
      Stepped (kind == .endOfLine || kind == .indentation) kinds

variable {rowStart : Bool} {kinds : List TokenKind}

theorem Stepped.anywhere (stepped : Stepped false kinds) : Stepped rowStart kinds := by
  cases kinds with
  | nil => trivial
  | cons kind kinds => exact ⟨fun same => absurd (stepped.1 same) Bool.false_ne_true, stepped.2⟩

theorem Stepped.closed (stepped : Stepped rowStart kinds) :
    Stepped rowStart (kinds ++ [.endOfFile]) := by
  induction kinds generalizing rowStart with
  | nil => exact ⟨by nofun, trivial⟩
  | cons kind kinds ih => exact ⟨stepped.1, ih stepped.2⟩

theorem Stepped.behind (stepped : Stepped rowStart kinds) {index : Nat}
    (found : kinds[index + 1]? = some .indentation) :
    kinds[index]? = some .endOfLine ∨ kinds[index]? = some .indentation := by
  induction kinds generalizing rowStart index with
  | nil => cases found
  | cons kind kinds ih =>
      cases index with
      | succ index => exact ih stepped.2 found
      | zero =>
          cases kinds with
          | nil => cases found
          | cons next kinds =>
              have row := stepped.2.1 (Option.some.inj found)
              rw [Bool.or_eq_true, beq_iff_eq, beq_iff_eq] at row
              rcases row with rfl | rfl
              · exact .inl rfl
              · exact .inr rfl

end TokenKind

namespace Lexeme

/-- Away from the front of a row no indentation is read. -/
theorem read_unindented (first : Char) (rest : List Char) :
    (read first rest).meaning ≠ some .indentation := by
  have number : (readNumber (first :: rest)).meaning ≠ some .indentation := by
    unfold readNumber
    dsimp only
    split <;> nofun
  have symbol : (readSymbol first (first :: rest)).meaning ≠ some .indentation := by
    unfold readSymbol
    split
    · nofun
    · split <;> nofun
  have character : (readChar rest).meaning ≠ some .indentation := by
    unfold readChar
    dsimp only
    split <;> nofun
  have word : (readWord (first :: rest)).meaning ≠ some .indentation := by
    intro same
    exact word_meaning_apart (by simp) (by simp) (by simp) _ (Option.some.inj same)
  unfold read
  dsimp only
  split; · nofun
  split; · nofun
  split; · nofun
  split; · nofun
  split; · nofun
  split; · nofun
  split; · exact character
  split; · exact number
  split; · exact word
  exact symbol

theorem stepped_read_all (budget : Nat) (rowStart : Bool) (text : List Char) :
    TokenKind.Stepped rowStart ((readAll budget rowStart text).filterMap meaning) := by
  induction budget generalizing rowStart text with
  | zero => trivial
  | succ budget ih =>
      cases text with
      | nil => trivial
      | cons first rest =>
          unfold readAll
          split
          · rename_i length found
            refine ⟨?_, ih true _⟩
            intro _
            cases rowStart with
            | true => rfl
            | false => cases found
          · dsimp only
            have unindented := read_unindented first rest
            cases means : (read first rest).meaning with
            | none =>
                rw [List.filterMap_cons_none means]
                exact (ih false _).anywhere
            | some kind =>
                rw [List.filterMap_cons_some means]
                have apart : kind ≠ .indentation := by
                  intro same
                  rw [means, same] at unindented
                  exact unindented rfl
                refine ⟨fun same => absurd same apart, ?_⟩
                have row : (some kind == some TokenKind.endOfLine) =
                    (kind == .endOfLine || kind == .indentation) := by
                  rw [beq_false_of_ne apart, Bool.or_false]
                  rfl
                rw [row]
                exact ih _ _

end Lexeme

namespace Tokenized

theorem kinds_of_locate (fileName : String) (reading : Reading) (lexemes : List Lexeme) :
    (locate fileName reading lexemes).tokens.map Token.kind =
      lexemes.filterMap Lexeme.meaning ++ [.endOfFile] := by
  induction lexemes generalizing reading with
  | nil => rfl
  | cons lexeme lexemes ih =>
      simp only [locate]
      rw [List.map_append, ih]
      cases means : lexeme.meaning with
      | none =>
          rw [List.filterMap_cons_none means]
          rfl
      | some kind =>
          rw [List.filterMap_cons_some means]
          rfl

theorem indents_of_text (text fileName : String) :
    (ofText text fileName).sequence.Indents := by
  have stepped : TokenKind.Stepped true ((ofText text fileName).tokens.map Token.kind) := by
    unfold ofText
    rw [kinds_of_locate]
    exact (Lexeme.stepped_read_all _ _ _).closed
  have kinds : ∀ {index}, index < (ofText text fileName).sequence.size →
      ((ofText text fileName).tokens.map Token.kind)[index]? =
        some ((ofText text fileName).sequence.get index).kind := by
    intro index bound
    have found := TokenSequence.get_of_list bound
    rw [tokens_of_text] at found
    rw [List.getElem?_map]
    exact congrArg (Option.map Token.kind) found
  intro index bound step
  have here := kinds bound
  rw [step] at here
  have behind := stepped.behind here
  rw [kinds (Nat.lt_of_succ_lt bound), Option.some.injEq, Option.some.injEq] at behind
  exact behind

end Tokenized

namespace Position

/-- The same column, some rows further down. -/
def lowered (rows : Nat) (position : Position) : Position := ⟨position.row + rows, position.column⟩

@[simp]
theorem lowered_zero (position : Position) : position.lowered 0 = position := rfl

theorem lowered_le_iff {rows : Nat} {first second : Position} :
    first.lowered rows ≤ second.lowered rows ↔ first ≤ second := by
  simp only [le_iff, lowered]
  omega

theorem lowered_max {rows : Nat} {first second : Position} :
    (max first second).lowered rows = max (first.lowered rows) (second.lowered rows) := by
  simp only [max, lowered_le_iff]
  split <;> rfl

theorem after_lowered (rows : Nat) (position : Position) (character : Char) (next : Option Char) :
    (position.lowered rows).after character next = (position.after character next).lowered rows := by
  unfold after
  split
  · simp only [nextLine, lowered, Nat.add_right_comm]
  · rfl

theorem walk_lowered (rows count : Nat) (position : Position) (text : List Char) :
    walk count (position.lowered rows) text =
      ((walk count position text).1.lowered rows, (walk count position text).2) := by
  induction count generalizing position text with
  | zero => rfl
  | succ count ih =>
      cases text with
      | nil => rfl
      | cons character text =>
          unfold walk
          rw [after_lowered, ih]

end Position

namespace Span

/-- The same columns, some rows further down. -/
def lowered (rows : Nat) (span : Span) : Span :=
  ⟨span.start.lowered rows, span.stop.lowered rows, Position.lowered_le_iff.mpr span.ordered⟩

@[simp]
theorem lowered_zero (span : Span) : span.lowered 0 = span := rfl

theorem ext {first second : Span} (start : first.start = second.start)
    (stop : first.stop = second.stop) : first = second := by
  cases first
  cases second
  cases start
  cases stop
  rfl

theorem lowered_reaching {rows : Nat} {start stop : Position} :
    (reaching start stop).lowered rows = reaching (start.lowered rows) (stop.lowered rows) :=
  ext rfl Position.lowered_max

end Span

/-- The same token some rows further down. -/
def Token.lowered (rows : Nat) (token : Token) : Token := ⟨token.kind, token.span.lowered rows⟩

/-- The same report some rows further down. -/
def Diagnostic.lowered (rows : Nat) (found : Diagnostic) : Diagnostic :=
  { found with span := found.span.lowered rows }

namespace Tokenized

/-- A text that is read further down has its tokens and faults further down. -/
theorem locate_lowered (fileName : String) (rows : Nat) (position : Position) (text : List Char)
    (lexemes : List Lexeme) :
    locate fileName ⟨position.lowered rows, text⟩ lexemes =
      ⟨(locate fileName ⟨position, text⟩ lexemes).tokens.map (Token.lowered rows),
        (locate fileName ⟨position, text⟩ lexemes).diagnostics.map (Diagnostic.lowered rows)⟩ := by
  have advance : ∀ (count : Nat) (reading : Reading),
      Reading.advance ⟨reading.position.lowered rows, reading.text⟩ count =
        ⟨(reading.advance count).position.lowered rows, (reading.advance count).text⟩ := by
    intro count reading
    simp only [Reading.advance, Position.walk_lowered]
  have span : ∀ (count : Nat) (reading : Reading),
      Reading.span ⟨reading.position.lowered rows, reading.text⟩ count =
        (reading.span count).lowered rows := by
    intro count reading
    apply Span.ext
    · rfl
    · simp only [Reading.span, advance, Span.lowered]
  induction lexemes generalizing position text with
  | nil => rfl
  | cons lexeme lexemes ih =>
      have rest := ih ((⟨position, text⟩ : Reading).advance lexeme.length).position
        ((⟨position, text⟩ : Reading).advance lexeme.length).text
      have step := advance lexeme.length ⟨position, text⟩
      have here := span lexeme.length ⟨position, text⟩
      have fault := fun start : Nat => advance start ⟨position, text⟩
      dsimp only at rest step here fault
      simp only [locate, step, rest, here, fault, List.map_append]
      congr 1
      · cases lexeme.meaning <;> rfl
      · simp only [List.map_map, span]
        rfl

end Tokenized

end ModuleLang
