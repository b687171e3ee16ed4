import Mathlib.Tactic.ByContra
import ModuleLang.Token.Cursor

/-!
Where tokens lie. The tokens of a text follow each other without overlap, and
they and the faults of lexemes end at the latest where the reference walk over
the whole text ends. A cursor moves within its sequence and never back, and the
end of what it moved past grows with it. Skipping stops at the first token that is not
skipped, or at the end of the file; the place is the only one with this property, so
that two cursors are compared by the places that they stop at.
-/

namespace ModuleLang

namespace Position

theorem le_of_lt {first second : Position} (order : first < second) : first ≤ second :=
  order.1

theorem lt_of_lt_of_le {first second third : Position} (lower : first < second)
    (upper : second ≤ third) : first < third :=
  ⟨le_trans lower.1 upper, fun back => lower.2 (le_trans upper back)⟩

theorem lt_of_le_of_lt {first second third : Position} (lower : first ≤ second)
    (upper : second < third) : first < third :=
  ⟨le_trans lower upper.1, fun back => upper.2 (le_trans back lower)⟩

/-- Position behind the last character of a text. -/
def ending (text : List Char) : Position := (walk text.length start text).1

end Position

namespace Reading

/-- Position behind the last character that is left to read. -/
def ending (reading : Reading) : Position :=
  (Position.walk reading.text.length reading.position reading.text).1

theorem ending_advance (reading : Reading) (count : Nat) :
    (reading.advance count).ending = reading.ending := by
  obtain ⟨position, text⟩ := reading
  unfold ending advance
  induction count generalizing position text with
  | zero => rfl
  | succ count ih =>
      cases text with
      | nil => rfl
      | cons character text => exact ih (position.after character text.head?) text

theorem le_ending (reading : Reading) : reading.position ≤ reading.ending :=
  Position.le_walk reading.text.length reading.position reading.text

theorem span_le_ending (reading : Reading) (count : Nat) :
    (reading.span count).stop ≤ reading.ending := by
  rw [← reading.ending_advance count]
  exact (reading.advance count).le_ending

end Reading

namespace TokenSequence

/-- No token starts before the one in front of it has ended, none ends behind
`limit`, and each but the end of the file takes some of the text. -/
structure LaidOut (limit : Position) (sequence : TokenSequence) : Prop where
  apart : ∀ {first second}, first < second → second < sequence.size →
    (sequence.get first).span.stop ≤ (sequence.get second).span.start
  inside : ∀ index, (sequence.get index).span.stop ≤ limit
  filled : ∀ index, (sequence.get index).kind ≠ .endOfFile →
    (sequence.get index).span.start < (sequence.get index).span.stop

theorem get_of_bound {sequence : TokenSequence} {index : Nat} (bound : index < sequence.tokens.size) :
    sequence.get index = sequence.tokens[index] := by
  have same : min index (sequence.size - 1) = index :=
    Nat.min_eq_left (Nat.le_sub_one_of_lt bound)
  simp only [get, same]

theorem kind_of_last (sequence : TokenSequence) :
    (sequence.get (sequence.size - 1)).kind = .endOfFile := by
  have closed := sequence.terminated
  have bound : sequence.tokens.size - 1 < sequence.tokens.size :=
    Nat.sub_lt sequence.size_pos Nat.one_pos
  rw [Array.back?_eq_getElem?, Array.getElem?_eq_getElem bound] at closed
  rw [size, get_of_bound bound]
  simpa using closed

theorem get_mem (sequence : TokenSequence) (index : Nat) :
    sequence.get index ∈ sequence.tokens.toList := by
  simp [get]

theorem laid_out_of_list {limit : Position} {sequence : TokenSequence}
    (apart : sequence.tokens.toList.Pairwise fun first second =>
      first.span.stop ≤ second.span.start)
    (inside : ∀ token ∈ sequence.tokens.toList, token.span.stop ≤ limit)
    (filled : ∀ token ∈ sequence.tokens.toList, token.kind ≠ .endOfFile →
      token.span.start < token.span.stop) :
    sequence.LaidOut limit where
  apart := by
    intro first second before bound
    have earlier : first < sequence.tokens.size := Nat.lt_trans before bound
    rw [get_of_bound earlier, get_of_bound bound]
    exact List.pairwise_iff_getElem.mp apart first second earlier bound before
  inside index := inside _ (sequence.get_mem index)
  filled index := filled _ (sequence.get_mem index)

end TokenSequence

namespace Tokenized

/-- The end-of-file token closes what is read. -/
theorem locate_closed (fileName : String) (reading : Reading) (lexemes : List Lexeme) :
    (locate fileName reading lexemes).tokens.getLast?.map Token.kind = some .endOfFile := by
  induction lexemes generalizing reading with
  | nil => rfl
  | cons lexeme lexemes ih =>
      have rest := ih (reading.advance lexeme.length)
      simp only [locate]
      rw [List.getLast?_append]
      cases last : (locate fileName (reading.advance lexeme.length) lexemes).tokens.getLast? with
      | none => simp [last] at rest
      | some token => simpa [last] using rest

theorem locate_spans (fileName : String) (reading : Reading) (lexemes : List Lexeme) :
    let read := locate fileName reading lexemes
    (∀ token ∈ read.tokens, reading.position ≤ token.span.start ∧
      token.span.stop ≤ reading.ending) ∧
    (read.tokens.Pairwise fun first second => first.span.stop ≤ second.span.start) ∧
    ∀ found ∈ read.diagnostics, found.span.stop ≤ reading.ending := by
  induction lexemes generalizing reading with
  | nil =>
      refine ⟨?_, ?_, ?_⟩
      · intro token member
        simp only [locate, List.mem_singleton] at member
        subst member
        exact ⟨Position.le_refl _, reading.le_ending⟩
      · simp [locate]
      · intro found member
        simp [locate] at member
  | cons lexeme lexemes ih =>
      obtain ⟨inside, apart, faults⟩ := ih (reading.advance lexeme.length)
      rw [Reading.ending_advance] at inside faults
      have forward := reading.le_advance lexeme.length
      have restInside : ∀ token ∈ (locate fileName (reading.advance lexeme.length) lexemes).tokens,
          reading.position ≤ token.span.start ∧ token.span.stop ≤ reading.ending :=
        fun token member => ⟨Position.le_trans forward (inside token member).1,
          (inside token member).2⟩
      refine ⟨?_, ?_, ?_⟩
      · intro token member
        simp only [locate, List.mem_append, Option.mem_toList, Option.map_eq_some_iff] at member
        obtain ⟨kind, -, rfl⟩ | member := member
        · exact ⟨Position.le_refl _, reading.span_le_ending _⟩
        · exact restInside token member
      · simp only [locate]
        rw [List.pairwise_append]
        refine ⟨?_, apart, ?_⟩
        · cases lexeme.meaning <;> simp
        · intro token own later member
          simp only [Option.mem_toList, Option.map_eq_some_iff] at own
          obtain ⟨kind, -, rfl⟩ := own
          exact (inside later member).1
      · intro found member
        simp only [locate, List.mem_append, List.mem_map] at member
        obtain ⟨fault, -, rfl⟩ | member := member
        · have bound := (reading.advance fault.start).span_le_ending (fault.stop - fault.start)
          rw [Reading.ending_advance] at bound
          exact bound
        · exact faults found member

theorem tokens_of_text (text fileName : String) :
    (ofText text fileName).sequence.tokens = (ofText text fileName).tokens.toArray := by
  have closed : (ofText text fileName).tokens.toArray.back?.map Token.kind = some .endOfFile := by
    have last := locate_closed fileName ⟨.start, text.toList⟩ (Lexeme.ofText text.toList)
    rw [List.back?_toArray]
    exact last
  unfold sequence TokenSequence.ofTokens
  rw [dif_pos closed]

theorem diagnostics_of_text (text fileName : String) :
    ∀ found ∈ (ofText text fileName).diagnostics, found.span.stop ≤ Position.ending text.toList :=
  (locate_spans fileName ⟨.start, text.toList⟩ (Lexeme.ofText text.toList)).2.2

end Tokenized

namespace Cursor

/-- The cursor stands at a token. -/
def Inside (cursor : Cursor) : Prop := cursor.position < cursor.sequence.size

variable {cursor : Cursor}

theorem inside_of_sequence (sequence : TokenSequence) : (ofSequence sequence).Inside :=
  sequence.size_pos

theorem remaining_pos (inside : cursor.Inside) : 0 < cursor.remaining :=
  Nat.sub_pos_of_lt inside

theorem current_kind_of_not_end (inside : cursor.Inside) (going : cursor.atEnd = false) :
    cursor.position + 1 < cursor.sequence.size := by
  unfold Inside at inside
  by_contra last
  have same : cursor.position = cursor.sequence.size - 1 := by omega
  have kind := cursor.sequence.kind_of_last
  simp [atEnd, current, same, kind] at going

theorem inside_advance (inside : cursor.Inside) : cursor.advance.Inside := by
  unfold advance
  split
  · exact inside
  · rename_i going
    exact current_kind_of_not_end inside (by simpa using going)

theorem position_advance (going : cursor.atEnd = false) :
    cursor.advance.position = cursor.position + 1 := by
  simp [advance, going]

theorem sequence_skip_within (skipped : TokenKind → Bool) (budget : Nat) (cursor : Cursor) :
    (skipWithin skipped budget cursor).sequence = cursor.sequence := by
  induction budget generalizing cursor with
  | zero => rfl
  | succ budget ih =>
      unfold skipWithin
      split
      · rfl
      · rw [ih, sequence_advance]

theorem inside_skip_within (skipped : TokenKind → Bool) (budget : Nat)
    (inside : cursor.Inside) : (skipWithin skipped budget cursor).Inside := by
  induction budget generalizing cursor with
  | zero => exact inside
  | succ budget ih =>
      unfold skipWithin
      split
      · exact inside
      · exact ih (inside_advance inside)

/-- A cursor moved on from another one. -/
structure Follows (before after : Cursor) : Prop where
  sequence : after.sequence = before.sequence
  position : before.position ≤ after.position
  inside : after.Inside

theorem Follows.refl (inside : cursor.Inside) : cursor.Follows cursor :=
  ⟨rfl, Nat.le_refl _, inside⟩

theorem Follows.trans {first second third : Cursor} (left : first.Follows second)
    (right : second.Follows third) : first.Follows third :=
  ⟨right.sequence.trans left.sequence, Nat.le_trans left.position right.position, right.inside⟩

theorem follows_advance (inside : cursor.Inside) : cursor.Follows cursor.advance :=
  ⟨sequence_advance cursor, le_position_advance cursor, inside_advance inside⟩

theorem follows_skip_while (skipped : TokenKind → Bool) (inside : cursor.Inside) :
    cursor.Follows (cursor.skipWhile skipped) :=
  ⟨sequence_skip_within skipped _ cursor, le_position_skipWithin skipped _ cursor,
    inside_skip_within skipped _ inside⟩

theorem follows_advance_inline (inside : cursor.Inside) : cursor.Follows cursor.advanceInline :=
  (follows_advance inside).trans (follows_skip_while _ (inside_advance inside))

theorem advance_inline_strict (inside : cursor.Inside) (going : cursor.atEnd = false) :
    cursor.position < cursor.advanceInline.position := by
  have next := position_advance going
  have later := (follows_skip_while TokenKind.isInlineTrivia (inside_advance inside)).position
  unfold advanceInline skipInline
  omega

theorem skip_while_strict (skipped : TokenKind → Bool) (inside : cursor.Inside)
    (going : cursor.atEnd = false) (skips : skipped cursor.current.kind = true) :
    cursor.position < (cursor.skipWhile skipped).position := by
  have positive := remaining_pos inside
  unfold skipWhile
  obtain ⟨budget, same⟩ : ∃ budget, cursor.remaining = budget + 1 :=
    ⟨cursor.remaining - 1, by omega⟩
  rw [same]
  unfold skipWithin
  rw [going, skips, Bool.not_true, Bool.or_false, if_neg Bool.false_ne_true]
  have next := position_advance going
  have later := le_position_skipWithin skipped budget cursor.advance
  omega

theorem restore_of_follows {fork : Cursor} (moved : cursor.Follows fork) :
    cursor.restore fork.position = fork := by
  obtain ⟨sequence, position⟩ := fork
  have same : sequence = cursor.sequence := moved.sequence
  have bound : position < sequence.size := moved.inside
  subst same
  have least : min position (cursor.sequence.size - 1) = position :=
    Nat.min_eq_left (Nat.le_sub_one_of_lt bound)
  simp [restore, least]

/-- The last token in front of an index that is no trivia, if there is one. -/
theorem previous_end_cases (sequence : TokenSequence) (index : Nat) :
    (previousEnd? sequence index = none ∧
        ∀ earlier < index, (sequence.get earlier).isTrivia = true) ∨
      ∃ last < index, (sequence.get last).isTrivia = false ∧
        (∀ between, last < between → between < index →
          (sequence.get between).isTrivia = true) ∧
        previousEnd? sequence index = some (sequence.get last).span.stop := by
  induction index with
  | zero => exact Or.inl ⟨rfl, by intro earlier bound; omega⟩
  | succ index ih =>
      unfold previousEnd?
      cases trivia : (sequence.get index).isTrivia with
      | false =>
          refine Or.inr ⟨index, Nat.lt_succ_self _, trivia, ?_, by simp [trivia]⟩
          intro between lower upper
          omega
      | true =>
          simp only [trivia, if_true]
          obtain ⟨absent, all⟩ | ⟨last, bound, solid, between, found⟩ := ih
          · refine Or.inl ⟨absent, ?_⟩
            intro earlier upper
            by_cases same : earlier = index
            · rw [same]
              exact trivia
            · exact all earlier (by omega)
          · refine Or.inr ⟨last, by omega, solid, ?_, found⟩
            intro other lower upper
            by_cases same : other = index
            · rw [same]
              exact trivia
            · exact between other lower (by omega)

section Layout

variable {limit : Position}

theorem start_mono (laid : cursor.sequence.LaidOut limit) {first second : Nat}
    (order : first ≤ second) (bound : second < cursor.sequence.size) :
    (cursor.sequence.get first).span.start ≤ (cursor.sequence.get second).span.start := by
  obtain before | same := Nat.lt_or_eq_of_le order
  · exact Position.le_trans (cursor.sequence.get first).span.ordered (laid.apart before bound)
  · rw [same]
    exact Position.le_refl _

theorem previous_end_le_current (laid : cursor.sequence.LaidOut limit) (inside : cursor.Inside) :
    cursor.previousEnd ≤ cursor.current.span.start := by
  unfold previousEnd
  obtain ⟨absent, -⟩ | ⟨last, bound, -, -, found⟩ :=
    previous_end_cases cursor.sequence cursor.position
  · rw [absent]
    exact Position.le_refl _
  · rw [found]
    exact laid.apart bound inside

theorem previous_end_le_limit (laid : cursor.sequence.LaidOut limit) (inside : cursor.Inside) :
    cursor.previousEnd ≤ limit :=
  Position.le_trans (previous_end_le_current laid inside)
    (Position.le_trans cursor.current.span.ordered (laid.inside _))

/-- Behind a token that is no trivia, at least that token was moved past. -/
theorem stop_le_previous_end (laid : cursor.sequence.LaidOut limit) (inside : cursor.Inside)
    {index : Nat} (before : index < cursor.position)
    (solid : (cursor.sequence.get index).isTrivia = false) :
    (cursor.sequence.get index).span.stop ≤ cursor.previousEnd := by
  unfold previousEnd
  obtain ⟨-, all⟩ | ⟨last, bound, -, between, found⟩ :=
    previous_end_cases cursor.sequence cursor.position
  · rw [all index before] at solid
    cases solid
  · rw [found]
    by_cases same : index = last
    · rw [same]
      exact Position.le_refl _
    · have order : index < last := by
        by_contra later
        have trivia := between index (by omega) before
        rw [trivia] at solid
        cases solid
      exact Position.le_trans (laid.apart order (Nat.lt_trans bound inside))
        (cursor.sequence.get last).span.ordered

theorem previous_end_mono {before after : Cursor} (laid : before.sequence.LaidOut limit)
    (moved : before.Follows after) :
    before.previousEnd ≤ after.previousEnd := by
  have laidAfter : after.sequence.LaidOut limit := by
    rw [moved.sequence]
    exact laid
  obtain ⟨absent, -⟩ | ⟨last, bound, solid, -, found⟩ :=
    previous_end_cases before.sequence before.position
  · have start : before.previousEnd = before.current.span.start := by
      simp [previousEnd, absent]
    obtain ⟨absentAfter, -⟩ | ⟨last, bound, solid, -, found⟩ :=
      previous_end_cases after.sequence after.position
    · have startAfter : after.previousEnd = after.current.span.start := by
        simp [previousEnd, absentAfter]
      rw [start, startAfter]
      unfold current
      rw [← moved.sequence]
      exact start_mono laidAfter moved.position moved.inside
    · have stopAfter : after.previousEnd = (after.sequence.get last).span.stop := by
        simp [previousEnd, found]
      rw [start, stopAfter]
      unfold current
      rw [← moved.sequence]
      -- The token found is not in front of `before`, where all is trivia.
      have later : before.position ≤ last := by
        by_contra earlier
        have order : last < before.position := by omega
        obtain ⟨-, all⟩ | ⟨other, otherBound, -, -, otherFound⟩ :=
          previous_end_cases before.sequence before.position
        · have trivia := all last order
          rw [← moved.sequence, solid] at trivia
          cases trivia
        · rw [otherFound] at absent
          cases absent
      exact Position.le_trans (start_mono laidAfter later (Nat.lt_trans bound moved.inside))
        (after.sequence.get last).span.ordered
  · have stop : before.previousEnd = (before.sequence.get last).span.stop := by
      simp [previousEnd, found]
    rw [stop, ← moved.sequence]
    refine stop_le_previous_end laidAfter moved.inside (Nat.lt_of_lt_of_le bound moved.position) ?_
    rw [moved.sequence]
    exact solid

end Layout

end Cursor

namespace TokenSequence

/-- The first place from `first` on with a token that is not skipped, or the end of the
file. -/
structure StopsAt (sequence : TokenSequence) (skipped : TokenKind → Bool)
    (first place : Nat) : Prop where
  behind : first ≤ place
  inside : place < sequence.size
  passed : ∀ index, first ≤ index → index < place →
    skipped (sequence.get index).kind = true ∧ (sequence.get index).kind ≠ .endOfFile
  stopped : skipped (sequence.get place).kind = false ∨ (sequence.get place).kind = .endOfFile

theorem StopsAt.unique {sequence : TokenSequence} {skipped : TokenKind → Bool}
    {first place other : Nat}
    (stops : sequence.StopsAt skipped first place) (again : sequence.StopsAt skipped first other) :
    place = other := by
  rcases Nat.lt_trichotomy place other with before | same | behind
  · have passed := again.passed place stops.behind before
    rcases stops.stopped with solid | ended
    · rw [solid] at passed
      cases passed.1
    · exact absurd ended passed.2
  · exact same
  · have passed := stops.passed other again.behind behind
    rcases again.stopped with solid | ended
    · rw [solid] at passed
      cases passed.1
    · exact absurd ended passed.2

end TokenSequence

namespace Cursor

variable {cursor : Cursor} {skipped : TokenKind → Bool}

theorem stops_skip_within {budget : Nat} (inside : cursor.Inside)
    (enough : cursor.remaining ≤ budget) :
    cursor.sequence.StopsAt skipped cursor.position
      (skipWithin skipped budget cursor).position := by
  induction budget generalizing cursor with
  | zero =>
      have positive := remaining_pos inside
      omega
  | succ budget ih =>
      unfold skipWithin
      split
      · rename_i stops
        rw [Bool.or_eq_true, Bool.not_eq_true', atEnd, beq_iff_eq] at stops
        exact ⟨Nat.le_refl _, inside, by intro index lower upper; omega, stops.symm⟩
      · rename_i goes
        rw [Bool.not_eq_true, Bool.or_eq_false_iff, Bool.not_eq_false'] at goes
        have next := position_advance goes.1
        have further : cursor.advance.remaining ≤ budget := by
          unfold remaining at enough ⊢
          rw [sequence_advance, next]
          omega
        have stops := ih (inside_advance inside) further
        rw [sequence_advance, next] at stops
        refine ⟨by have := stops.behind; omega, stops.inside, ?_, stops.stopped⟩
        intro index lower upper
        rcases Nat.eq_or_lt_of_le lower with same | later
        · subst same
          refine ⟨goes.2, ?_⟩
          intro ended
          have going := goes.1
          rw [atEnd, current, ended] at going
          cases going
        · exact stops.passed index later upper

theorem stops_skip_while (skipped : TokenKind → Bool) (inside : cursor.Inside) :
    cursor.sequence.StopsAt skipped cursor.position (cursor.skipWhile skipped).position :=
  stops_skip_within inside (Nat.le_refl _)

/-- Behind trivia stands a token that counts. -/
theorem counts_skip_lines (inside : cursor.Inside) :
    cursor.skipLines.current.isTrivia = false := by
  have stops := stops_skip_while TokenKind.isTrivia inside
  unfold current Token.isTrivia
  rw [show cursor.skipLines.sequence = _ from (follows_skip_while _ inside).sequence]
  obtain solid | ended := stops.stopped
  · exact solid
  · rw [show (cursor.sequence.get cursor.skipLines.position).kind = _ from ended]
    rfl

/-- Skipping from a place to the one that it stops at. -/
theorem skip_while_of_stops {place : Nat} (inside : cursor.Inside)
    (stops : cursor.sequence.StopsAt skipped cursor.position place) :
    cursor.skipWhile skipped = ⟨cursor.sequence, place⟩ := by
  have same := (stops_skip_while skipped inside).unique stops
  have sequence : (cursor.skipWhile skipped).sequence = cursor.sequence :=
    sequence_skip_within skipped _ cursor
  cases skips : cursor.skipWhile skipped with
  | mk tokens position =>
      rw [skips] at same sequence
      cases same
      cases sequence
      rfl

end Cursor

end ModuleLang
