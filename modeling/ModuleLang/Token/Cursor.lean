import ModuleLang.Token.Sequence

/-!
A place in a token sequence. Moving never passes the end-of-file token, and a
copy of a cursor is a snapshot that can be returned to.
-/

namespace ModuleLang

structure Cursor where
  sequence : TokenSequence
  position : Nat

namespace Cursor

def ofSequence (sequence : TokenSequence) : Cursor := ⟨sequence, 0⟩

def current (cursor : Cursor) : Token := cursor.sequence.get cursor.position

def peekNext (cursor : Cursor) : Token := cursor.sequence.get (cursor.position + 1)

def atEnd (cursor : Cursor) : Bool := cursor.current.kind == .endOfFile

/-- Goes to a position, at most to the end-of-file token. -/
def restore (cursor : Cursor) (position : Nat) : Cursor :=
  { cursor with position := min position (cursor.sequence.size - 1) }

theorem position_restore_lt (cursor : Cursor) (position : Nat) :
    (cursor.restore position).position < cursor.sequence.size :=
  Nat.lt_of_le_of_lt (Nat.min_le_right _ _) (Nat.sub_lt cursor.sequence.size_pos Nat.one_pos)

/-- How many tokens may still follow the current one, the current one included. -/
def remaining (cursor : Cursor) : Nat := cursor.sequence.size - cursor.position

def advance (cursor : Cursor) : Cursor :=
  if cursor.atEnd then cursor else { cursor with position := cursor.position + 1 }

theorem le_position_advance (cursor : Cursor) : cursor.position ≤ cursor.advance.position := by
  unfold advance
  split
  · exact Nat.le_refl _
  · exact Nat.le_succ _

theorem sequence_advance (cursor : Cursor) : cursor.advance.sequence = cursor.sequence := by
  unfold advance
  split <;> rfl

def skipWithin (skipped : TokenKind → Bool) : (budget : Nat) → Cursor → Cursor
  | 0, cursor => cursor
  | budget + 1, cursor =>
      if cursor.atEnd || !skipped cursor.current.kind then cursor
      else skipWithin skipped budget cursor.advance

/-- Skipping never goes back. -/
theorem le_position_skipWithin (skipped : TokenKind → Bool) (budget : Nat) (cursor : Cursor) :
    cursor.position ≤ (skipWithin skipped budget cursor).position := by
  induction budget generalizing cursor with
  | zero => exact Nat.le_refl _
  | succ budget ih =>
    unfold skipWithin
    split
    · exact Nat.le_refl _
    · exact Nat.le_trans (le_position_advance cursor) (ih cursor.advance)

/-- Moves to the first token, from the current one on, that is not skipped, or
to the end-of-file token. -/
def skipWhile (skipped : TokenKind → Bool) (cursor : Cursor) : Cursor :=
  skipWithin skipped cursor.remaining cursor

/-- Skips blanks and comments. -/
def skipInline (cursor : Cursor) : Cursor := cursor.skipWhile TokenKind.isInlineTrivia

/-- Skips blanks, comments, indentation and line ends. -/
def skipLines (cursor : Cursor) : Cursor := cursor.skipWhile TokenKind.isTrivia

/-- Moves past the current token and the blanks and comments behind it. -/
def advanceInline (cursor : Cursor) : Cursor := cursor.advance.skipInline

def peekWithin : (budget : Nat) → Cursor → (offset : Nat) → Token
  | 0, cursor, _ => cursor.current
  | budget + 1, cursor, offset =>
      if cursor.atEnd then cursor.current
      else if cursor.current.kind.isInlineTrivia then peekWithin budget cursor.advance offset
      else
        match offset with
        | 0 => cursor.current
        | offset + 1 => peekWithin budget cursor.advance offset

/-- The `offset`-th token at or behind the current one, counting no blanks and
comments, or the end-of-file token. -/
def peek (cursor : Cursor) (offset : Nat) : Token := peekWithin cursor.remaining cursor offset

/-- First index of the row that the token before `index` ends in. -/
def rowStart (sequence : TokenSequence) : (index : Nat) → Nat
  | 0 => 0
  | index + 1 =>
      if (sequence.get index).kind == .endOfLine then index + 1 else rowStart sequence index

/-- Number of indentation steps from `index` on. -/
def indentationFrom (sequence : TokenSequence) : (budget index : Nat) → Nat
  | 0, _ => 0
  | budget + 1, index =>
      if (sequence.get index).kind == .indentation then
        indentationFrom sequence budget (index + 1) + 1
      else 0

/-- Number of indentation steps that open the current row. -/
def indentation (cursor : Cursor) : Nat :=
  let first := rowStart cursor.sequence cursor.position
  indentationFrom cursor.sequence (cursor.sequence.size - first) first

/-- End of the last token before `index` that is no trivia. -/
def previousEnd? (sequence : TokenSequence) : (index : Nat) → Option Position
  | 0 => none
  | index + 1 =>
      let token := sequence.get index
      if token.isTrivia then previousEnd? sequence index else some token.span.stop

/-- End of the last token before the cursor that is no trivia, or the start of
the current token where there is none. -/
def previousEnd (cursor : Cursor) : Position :=
  (previousEnd? cursor.sequence cursor.position).getD cursor.current.span.start

end Cursor

end ModuleLang
