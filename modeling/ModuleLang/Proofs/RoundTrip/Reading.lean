import ModuleLang.Proofs.RoundTrip.Spelling
import ModuleLang.Proofs.Token.Layout

/-!
The tokens of a text in which single spaces stand between the texts of tokens: these
tokens, with a blank between two of them, and the end of the file.
-/

namespace ModuleLang

open ModuleLang.Text

namespace TokenKind

/-- Tokens whose texts can be put into one row. -/
def AreSpelled (kinds : List TokenKind) : Prop :=
  ∀ kind ∈ kinds, kind.IsSpelled ∧ kind ≠ .endOfLine

/-- The characters of a row of tokens. -/
def row (kinds : List TokenKind) : List Char :=
  [' '].intercalate (kinds.map fun kind => kind.text.toList)

theorem row_cons (kind next : TokenKind) (kinds : List TokenKind) :
    row (kind :: next :: kinds) = kind.text.toList ++ ' ' :: row (next :: kinds) := by
  simp [row, List.intercalate_cons_cons]

end TokenKind

namespace Lexeme

open TokenKind (AreSpelled row)

theorem indentation_of_solid {first : Char} (solid : isBlank first = false) (rest : List Char) :
    indentationLength? (first :: rest) = none := by
  have apart : ∀ {other}, isBlank other = true → first ≠ other := by
    rintro other blank rfl
    rw [solid] at blank
    cases blank
  unfold indentationLength?
  split
  · rename_i same
    cases same
    exact absurd rfl (apart (by decide))
  · rename_i same
    cases same
    exact absurd rfl (apart (by decide))
  · rfl

/-- Reading one lexeme where no indentation stands. -/
theorem read_all_step {first : Char} {body rest : List Char} {kind : TokenKind} {budget : Nat}
    (rowStart : Bool) (solid : rowStart = true → isBlank first = false)
    (read' : read first (body ++ rest) = .plain (body.length + 1) kind) :
    readAll (budget + 1) rowStart (first :: body ++ rest) =
      .plain (body.length + 1) kind :: readAll budget (some kind == some .endOfLine) rest := by
  have row : (if rowStart then indentationLength? (first :: (body ++ rest)) else none) = none := by
    cases rowStart with
    | false => rfl
    | true => exact indentation_of_solid (solid rfl) _
  rw [List.cons_append, readAll, row]
  simp only [read', plain, List.drop_succ_cons, List.drop_left]

/-- A blank is read up to the next token. -/
theorem read_blank {next : Char} (solid : isBlank next = false) (rest : List Char) :
    read ' ' (next :: rest) = .plain 1 .blank := by
  have stops : isInlineBlank next = false := by rw [isInlineBlank, solid, Bool.false_and]
  have taken : (' ' :: next :: rest).takeWhile isInlineBlank = [' '] := by
    rw [List.takeWhile_cons_of_pos (by decide), List.takeWhile_cons_of_neg (by simp [stops])]
  rw [read, if_neg (by decide), if_neg (by decide), if_pos (by decide), taken]
  rfl

theorem row_starts {kind : TokenKind} (kinds : List TokenKind) {first : Char} {body : List Char}
    (text : kind.text.toList = first :: body) : ∃ rest, row (kind :: kinds) = first :: rest := by
  cases kinds with
  | nil => exact ⟨body, by simp [row, text]⟩
  | cons next kinds =>
      rw [TokenKind.row_cons, text]
      exact ⟨_, rfl⟩

/-- The lexemes of a row of tokens. -/
theorem read_all_row {kinds : List TokenKind} (spelled : AreSpelled kinds) {budget : Nat}
    (enough : (row kinds).length ≤ budget) (rowStart : Bool) :
    (readAll budget rowStart (row kinds)).map meaning =
        (kinds.intersperse .blank).map some ∧
      ∀ lexeme ∈ readAll budget rowStart (row kinds), lexeme.faults = [] := by
  induction kinds generalizing budget rowStart with
  | nil =>
      have none : readAll budget rowStart (row []) = [] := by
        cases budget with
        | zero => rfl
        | succ budget => rfl
      rw [none]
      exact ⟨rfl, List.forall_mem_nil _⟩
  | cons kind kinds ih =>
      obtain ⟨⟨first, body, text, solid, read'⟩, ending⟩ := spelled kind List.mem_cons_self
      have later : (some kind == some TokenKind.endOfLine) = false := by simpa using ending
      cases kinds with
      | nil =>
          have whole : row [kind] = first :: body ++ [] := by simp [row, text]
          rw [whole] at enough ⊢
          cases budget with
          | zero => cases enough
          | succ budget =>
              rw [read_all_step rowStart (fun _ => solid) (read' [] (by simp [IsParted]))]
              have none : readAll budget (some kind == some .endOfLine) [] = [] := by
                cases budget with
                | zero => rfl
                | succ budget => rfl
              rw [none]
              exact ⟨rfl, by simp [plain]⟩
      | cons next kinds =>
          obtain ⟨⟨first', body', text', solid', -⟩, -⟩ :=
            spelled next (List.mem_cons_of_mem _ List.mem_cons_self)
          obtain ⟨rest, starts⟩ := row_starts kinds text'
          have parted : IsParted (' ' :: row (next :: kinds)) := by simp [IsParted]
          rw [TokenKind.row_cons, text] at enough ⊢
          simp only [List.cons_append, List.length_cons, List.length_append] at enough
          obtain ⟨budget, rfl⟩ : ∃ less, budget = less + 2 := ⟨budget - 2, by omega⟩
          obtain ⟨same, faultless⟩ := ih
            (fun other member => spelled other (List.mem_cons_of_mem _ member))
            (show (row (next :: kinds)).length ≤ budget by omega) false
          have blank : read ' ' ([] ++ row (next :: kinds)) = .plain 1 .blank := by
            rw [List.nil_append, starts]
            exact read_blank solid' rest
          have gap : readAll (budget + 1) false (' ' :: row (next :: kinds)) =
              .plain 1 .blank :: readAll budget false (row (next :: kinds)) :=
            read_all_step false (by simp) blank
          rw [read_all_step rowStart (fun _ => solid) (read' _ parted), later, gap]
          refine ⟨?_, ?_⟩
          · simp only [List.map_cons, same, plain]
            rfl
          · intro lexeme member
            simp only [List.mem_cons] at member
            obtain rfl | rfl | member := member
            · rfl
            · rfl
            · exact faultless lexeme member

end Lexeme

namespace Tokenized

theorem locate_faultless (fileName : String) {lexemes : List Lexeme} {kinds : List TokenKind}
    (meanings : lexemes.map Lexeme.meaning = kinds.map some)
    (faultless : ∀ lexeme ∈ lexemes, lexeme.faults = []) (reading : Reading) :
    (locate fileName reading lexemes).tokens.map Token.kind = kinds ++ [.endOfFile] ∧
      (locate fileName reading lexemes).diagnostics = [] := by
  induction lexemes generalizing kinds reading with
  | nil =>
      obtain rfl : kinds = [] := List.map_eq_nil_iff.mp meanings.symm
      exact ⟨rfl, rfl⟩
  | cons lexeme lexemes ih =>
      obtain ⟨kind, others, rfl, first, rest⟩ := List.map_eq_cons_iff.mp meanings.symm
      obtain ⟨same, none⟩ := ih rest.symm
        (fun other member => faultless other (List.mem_cons_of_mem _ member))
        (reading.advance lexeme.length)
      have own : lexeme.faults = [] := faultless lexeme List.mem_cons_self
      have meaning : lexeme.meaning = some kind := first.symm
      simp only [locate, own, meaning, none, Option.map_some, Option.toList_some, List.map_append,
        same]
      exact ⟨rfl, rfl⟩

/-- The tokens of a text that is a row of tokens. -/
theorem of_row {kinds : List TokenKind} (spelled : TokenKind.AreSpelled kinds) {text : String}
    (same : text.toList = TokenKind.row kinds) (fileName : String) :
    (ofText text fileName).tokens.map Token.kind = kinds.intersperse .blank ++ [.endOfFile] ∧
      (ofText text fileName).diagnostics = [] := by
  obtain ⟨meanings, faultless⟩ := Lexeme.read_all_row spelled (Nat.le_refl _) true
  unfold ofText Lexeme.ofText
  rw [same]
  exact locate_faultless fileName meanings faultless _

end Tokenized

end ModuleLang

/-!
Reading a row of tokens. A cursor shows the tokens that are left in the row, blanks
left out; moving past the current one leaves a cursor that shows the others.
-/

namespace ModuleLang

namespace TokenKind

/-- The next token of a row. -/
def next (kinds : List TokenKind) : TokenKind := kinds.head?.getD .endOfFile

theorem inline_of_solid {kind : TokenKind} (solid : kind.isTrivia = false) :
    kind.isInlineTrivia = false := by
  cases kind <;> first | rfl | cases solid

end TokenKind

namespace Cursor

/-- The tokens from the cursor to the end of the file, blanks left out. -/
def Shows : List TokenKind → Cursor → Prop
  | [], cursor => cursor.Inside ∧ cursor.current.kind = .endOfFile
  | kind :: kinds, cursor => cursor.Inside ∧ cursor.current.kind = kind ∧ kind ≠ .endOfFile ∧
      kind.isTrivia = false ∧ Shows kinds cursor.advanceInline

variable {kind : TokenKind} {kinds : List TokenKind} {cursor : Cursor}

namespace Shows

theorem inside (shows' : Shows kinds cursor) : cursor.Inside := by
  cases kinds with
  | nil => exact shows'.1
  | cons kind kinds => exact shows'.1

theorem current_kind (shows' : Shows kinds cursor) : cursor.current.kind = TokenKind.next kinds := by
  cases kinds with
  | nil => exact shows'.2
  | cons kind kinds => exact shows'.2.1

theorem rest (shows' : Shows (kind :: kinds) cursor) : Shows kinds cursor.advanceInline :=
  shows'.2.2.2.2

theorem solid (shows' : Shows kinds cursor) : cursor.current.kind.isTrivia = false := by
  cases kinds with
  | nil =>
      rw [shows'.2]
      rfl
  | cons kind kinds =>
      rw [shows'.2.1]
      exact shows'.2.2.2.1

theorem going (shows' : Shows (kind :: kinds) cursor) : cursor.atEnd = false := by
  rw [atEnd, shows'.2.1]
  exact beq_eq_false_iff_ne.mpr shows'.2.2.1

end Shows

/-- Nothing is skipped in front of a token that is kept. -/
theorem skip_within_stays {skipped : TokenKind → Bool} (keeps : skipped cursor.current.kind = false)
    (budget : Nat) : skipWithin skipped budget cursor = cursor := by
  cases budget with
  | zero => rfl
  | succ budget => rw [skipWithin, keeps, Bool.not_false, Bool.or_true, if_pos rfl]

theorem Shows.skip_lines (shows' : Shows kinds cursor) : cursor.skipLines = cursor :=
  skip_within_stays shows'.solid _

/-- There are as many tokens left as the row has, and the end of the file. -/
theorem Shows.length (shows' : Shows kinds cursor) : kinds.length < cursor.remaining := by
  induction kinds generalizing cursor with
  | nil => exact remaining_pos shows'.inside
  | cons kind kinds ih =>
      have fewer := ih shows'.rest
      have further := advance_inline_strict shows'.inside shows'.going
      have same := (follows_advance_inline shows'.inside).sequence
      unfold remaining at *
      rw [same] at fewer
      rw [List.length_cons]
      omega

theorem peek_within_zero (budget : Nat) (cursor : Cursor) :
    peekWithin budget cursor 0 = (skipWithin TokenKind.isInlineTrivia budget cursor).current := by
  induction budget generalizing cursor with
  | zero => rfl
  | succ budget ih =>
      unfold peekWithin skipWithin
      cases cursor.atEnd with
      | true => rfl
      | false =>
          cases cursor.current.kind.isInlineTrivia with
          | true => exact ih _
          | false => rfl

/-- Looking one token ahead is looking from the next token. -/
theorem peek_next (inside : cursor.Inside) (going : cursor.atEnd = false)
    (plain : cursor.current.kind.isInlineTrivia = false) :
    cursor.peek 1 = cursor.advanceInline.current := by
  obtain ⟨budget, same⟩ : ∃ budget, cursor.remaining = budget + 1 :=
    ⟨cursor.remaining - 1, by have positive := remaining_pos inside; omega⟩
  have less : cursor.advance.remaining = budget := by
    unfold remaining at *
    rw [sequence_advance, position_advance going]
    omega
  rw [Cursor.peek, same, peekWithin, going, if_neg Bool.false_ne_true, plain,
    if_neg Bool.false_ne_true]
  rw [peek_within_zero, advanceInline, skipInline, skipWhile, less]

/-- Looking one token ahead sees the second token of the row. -/
theorem Shows.peek (shows' : Shows (kind :: kinds) cursor) :
    (cursor.peek 1).kind = TokenKind.next kinds := by
  rw [peek_next shows'.inside shows'.going (TokenKind.inline_of_solid shows'.solid),
    shows'.rest.current_kind]

theorem kind_of_tokens {sequence : TokenSequence} {tokens : List TokenKind}
    (same : sequence.tokens.toList.map Token.kind = tokens) {index : Nat}
    (bound : index < tokens.length) : (sequence.get index).kind = tokens[index] := by
  subst same
  have bound' : index < sequence.tokens.size := by simpa using bound
  rw [TokenSequence.get_of_bound bound']
  simp

/-- Tokens without blanks between them are shown token by token. -/
theorem shows_tokens {sequence : TokenSequence} {before kinds : List TokenKind}
    (solid : ∀ kind ∈ kinds, kind.isTrivia = false ∧ kind ≠ .endOfFile)
    (same : sequence.tokens.toList.map Token.kind = before ++ (kinds ++ [TokenKind.endOfFile])) :
    Shows kinds ⟨sequence, before.length⟩ := by
  have size : sequence.size = (before ++ (kinds ++ [TokenKind.endOfFile])).length := by
    rw [← same, List.length_map]
    rfl
  have inside : (Cursor.mk sequence before.length).Inside := by
    unfold Inside
    simp [size]
  induction kinds generalizing before with
  | nil =>
      refine ⟨inside, ?_⟩
      rw [current, kind_of_tokens same (by simp)]
      simp
  | cons kind kinds ih =>
      have own : (Cursor.mk sequence before.length).current.kind = kind := by
        simp [current, kind_of_tokens same]
      obtain ⟨plain, going⟩ := solid kind List.mem_cons_self
      have notEnd : (Cursor.mk sequence before.length).atEnd = false := by
        rw [atEnd, own]
        exact beq_eq_false_iff_ne.mpr going
      have behind := @ih (before ++ [kind])
        (fun other member => solid other (List.mem_cons_of_mem _ member)) (by simpa using same)
        (by simpa using size) (by simp [Inside, size])
      rw [List.length_append, List.length_singleton] at behind
      refine ⟨inside, own, going, plain, ?_⟩
      rw [advanceInline, advance, notEnd, if_neg Bool.false_ne_true, skipInline, skipWhile,
        skip_within_stays (TokenKind.inline_of_solid behind.solid)]
      exact behind

/-- A row of tokens with blanks between them is shown token by token. -/
theorem shows_row {sequence : TokenSequence} {before kinds : List TokenKind}
    (solid : ∀ kind ∈ kinds, kind.isTrivia = false ∧ kind ≠ .endOfFile)
    (same : sequence.tokens.toList.map Token.kind =
      before ++ (kinds.intersperse TokenKind.blank ++ [TokenKind.endOfFile])) :
    Shows kinds ⟨sequence, before.length⟩ := by
  have size : sequence.size = (before ++ (kinds.intersperse TokenKind.blank ++ [TokenKind.endOfFile])).length := by
    rw [← same, List.length_map]
    rfl
  induction kinds generalizing before with
  | nil =>
      refine ⟨?_, ?_⟩
      · unfold Inside
        simp [size]
      · rw [current, kind_of_tokens same (by simp)]
        simp
  | cons kind kinds ih =>
      have inside : (Cursor.mk sequence before.length).Inside := by
        unfold Inside
        cases kinds <;> simp [size]
      have own : (Cursor.mk sequence before.length).current.kind = kind := by
        cases kinds <;> simp [current, kind_of_tokens same]
      obtain ⟨plain, going⟩ := solid kind List.mem_cons_self
      have notEnd : (Cursor.mk sequence before.length).atEnd = false := by
        rw [atEnd, own]
        exact beq_eq_false_iff_ne.mpr going
      have step : (Cursor.mk sequence before.length).advance = ⟨sequence, before.length + 1⟩ := by
        rw [advance, notEnd, if_neg Bool.false_ne_true]
      refine ⟨inside, own, going, plain, ?_⟩
      rw [advanceInline, step]
      cases kinds with
      | nil =>
          have ends := @ih (before ++ [kind]) (List.forall_mem_nil _) (by simpa using same) (by simpa using size)
          rw [List.length_append, List.length_singleton] at ends
          rw [skipInline, skipWhile, skip_within_stays (TokenKind.inline_of_solid ends.solid)]
          exact ends
      | cons next kinds =>
          have behind := @ih (before ++ [kind, .blank])
            (fun other member => solid other (List.mem_cons_of_mem _ member))
            (by simpa using same) (by simpa using size)
          have length : (before ++ [kind, TokenKind.blank]).length = before.length + 2 := by simp
          rw [length] at behind
          have blank : (Cursor.mk sequence (before.length + 1)).current.kind = .blank := by
            simp [current, kind_of_tokens same]
          have notLast : (Cursor.mk sequence (before.length + 1)).atEnd = false := by
            rw [atEnd, blank]
            rfl
          have step' : (Cursor.mk sequence (before.length + 1)).advance =
              ⟨sequence, before.length + 2⟩ := by
            rw [advance, notLast, if_neg Bool.false_ne_true]
          obtain ⟨budget, enough⟩ : ∃ budget,
              (Cursor.mk sequence (before.length + 1)).remaining = budget + 1 := by
            refine ⟨sequence.size - (before.length + 1) - 1, ?_⟩
            have last : before.length + 2 < sequence.size := behind.inside
            change sequence.size - (before.length + 1) = _
            omega
          have skips : TokenKind.isInlineTrivia .blank = true := rfl
          rw [skipInline, skipWhile, enough, skipWithin, notLast, blank, skips, Bool.not_true,
            Bool.or_false, if_neg Bool.false_ne_true, step',
            skip_within_stays (TokenKind.inline_of_solid behind.solid)]
          exact behind

end Cursor

end ModuleLang
