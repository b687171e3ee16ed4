import ModuleLang.Proofs.Coupled.Declaration
import ModuleLang.Proofs.Token.Joining

/-!
A run over a file beside one over the same tokens with a line end and another file behind
them. What the first file leaves open is followed from its start: inside of parentheses and
behind an operator that waits its end cannot be ahead. Elsewhere a line end and the end of
a file are taken alike, and only a body or another item is looked for behind them.
-/

namespace ModuleLang

theorem TokenSequence.within_of_going {sequence : TokenSequence} {index : Nat}
    (bound : index < sequence.size) (going : (sequence.get index).kind ≠ .endOfFile) :
    index + 1 < sequence.size :=
  @Cursor.current_kind_of_not_end ⟨sequence, index⟩ bound (beq_false_of_ne going)

namespace TokenSequence.Joins

variable {rows : Nat} {first second whole : TokenSequence} (joins : first.Joins rows second whole)

include joins

theorem last_of_end {index : Nat} (bound : index < first.size)
    (ended : (first.get index).kind = .endOfFile) : index + 1 = first.size := by
  by_contra early
  exact joins.going index (by omega) ended

theorem kind_of_end {index : Nat} (bound : index < first.size)
    (ended : (first.get index).kind = .endOfFile) : (whole.get index).kind = .endOfLine := by
  have last := joins.last_of_end bound ended
  have same : index = first.size - 1 := by omega
  rw [same]
  exact joins.seam

theorem start_front {index : Nat} (bound : index < first.size) :
    (whole.get index).span.start = (first.get index).span.start := by
  by_cases inside : index + 1 < first.size
  · rw [joins.front index inside]
  · have same : index = first.size - 1 := by omega
    rw [same]
    exact joins.starts

/-- Skipping stops at the same place, if it stops in front of the line end or at it. -/
theorem stops_front {skipped : TokenKind → Bool} {from' place : Nat}
    (stops : first.StopsAt skipped from' place)
    (within : (first.get place).kind ≠ .endOfFile ∨ skipped .endOfLine = false) :
    whole.StopsAt skipped from' place where
  behind := stops.behind
  inside := by
    rw [joins.size]
    exact Nat.lt_add_right _ stops.inside
  passed index lower upper := by
    have inside := stops.inside
    rw [joins.front index (by omega)]
    exact stops.passed index lower upper
  stopped := by
    by_cases ended : (first.get place).kind = .endOfFile
    · rw [joins.kind_of_end stops.inside ended]
      exact .inl (within.resolve_left (absurd ended))
    · rw [joins.front place (TokenSequence.within_of_going stops.inside ended)]
      exact stops.stopped

/-- Line ends that are skipped up to the end of the first file are skipped on into the
second one. -/
theorem stops_across {skipped : TokenKind → Bool} {from' last place : Nat}
    (stops : first.StopsAt skipped from' last) (ended : (first.get last).kind = .endOfFile)
    (row : skipped .endOfLine = true) (beyond : second.StopsAt skipped 0 place) :
    whole.StopsAt skipped from' (first.size + place) where
  behind := by
    have behind := stops.behind
    have inside := stops.inside
    omega
  inside := by
    rw [joins.size]
    exact Nat.add_lt_add_left beyond.inside _
  passed index lower upper := by
    have final := joins.last_of_end stops.inside ended
    by_cases before : index < last
    · rw [joins.front index (by omega)]
      exact stops.passed index lower before
    by_cases seam : index = last
    · rw [seam, joins.kind_of_end stops.inside ended]
      exact ⟨row, by nofun⟩
    · obtain ⟨other, rfl⟩ : ∃ other, index = first.size + other :=
        ⟨index - first.size, by omega⟩
      have below : other < place := by omega
      have same := joins.back other (Nat.lt_trans below beyond.inside)
      rw [same]
      exact beyond.passed other (Nat.zero_le _) below
  stopped := by
    have same := joins.back place beyond.inside
    rw [same]
    exact beyond.stopped

theorem previous_end_front {index : Nat} (bound : index < first.size) :
    Cursor.previousEnd? whole index = Cursor.previousEnd? first index := by
  induction index with
  | zero => rfl
  | succ index ih =>
      unfold Cursor.previousEnd?
      rw [joins.front index bound, ih (Nat.lt_of_succ_lt bound)]

theorem row_start_front {index : Nat} (bound : index < first.size) :
    Cursor.rowStart whole index = Cursor.rowStart first index := by
  induction index with
  | zero => rfl
  | succ index ih =>
      unfold Cursor.rowStart
      rw [joins.front index bound, ih (Nat.lt_of_succ_lt bound)]

theorem indentation_from_front {budget other index : Nat} (bound : index < first.size)
    (enough : first.size - index ≤ budget) (also : first.size - index ≤ other) :
    Cursor.indentationFrom whole other index = Cursor.indentationFrom first budget index := by
  induction budget generalizing index other with
  | zero => omega
  | succ budget ih =>
      obtain ⟨other, rfl⟩ : ∃ less, other = less + 1 := ⟨other - 1, by omega⟩
      unfold Cursor.indentationFrom
      by_cases ended : (first.get index).kind = .endOfFile
      · rw [joins.kind_of_end bound ended, ended]
        rfl
      · have inside := TokenSequence.within_of_going bound ended
        rw [joins.front index inside]
        split
        · rw [ih inside (by omega) (by omega)]
        · rfl

theorem indentation_front {index : Nat} (bound : index < first.size) :
    Cursor.indentation ⟨whole, index⟩ = Cursor.indentation ⟨first, index⟩ := by
  have start := Cursor.row_start_le first index
  have larger := joins.size
  unfold Cursor.indentation
  dsimp only
  rw [joins.row_start_front bound]
  exact joins.indentation_from_front (Nat.lt_of_le_of_lt start bound) (Nat.le_refl _) (by omega)

end TokenSequence.Joins

namespace ParsingContext

/-- Contexts at the same place, in the first file by itself and in the whole, with equally
many reports. -/
inductive Aligned (first whole : TokenSequence) : ParsingContext → ParsingContext → Prop
  | intro {position : Nat} (bound : position < first.size) {reports others : List Diagnostic}
      (length : others.length = reports.length) (fileName : String) :
      Aligned first whole ⟨⟨first, position⟩, reports, fileName⟩
        ⟨⟨whole, position⟩, others, fileName⟩

variable {rows : Nat} {first second whole : TokenSequence} {here there ahead beyond : ParsingContext}

namespace Aligned

variable (aligned : Aligned first whole here there)

include aligned

theorem inside : here.cursor.Inside := by
  cases aligned with
  | intro bound length fileName => exact bound

theorem reported (kind : DiagnosticKind) (span other : Span) :
    Aligned first whole (here.report kind span) (there.report kind other) := by
  cases aligned with
  | intro bound length fileName =>
      refine .intro bound ?_ fileName
      rw [List.length_append, List.length_append, length]
      rfl

theorem forked : Aligned first whole here.fork there.fork := by
  cases aligned with
  | intro bound length fileName => exact .intro bound rfl fileName

theorem moved (inner : Aligned first whole ahead beyond) :
    (ahead.cursor.position = here.cursor.position ∧
        beyond.cursor.position = there.cursor.position ∧ ahead.current.kind = here.current.kind) ∨
      ahead.cursor.position ≠ here.cursor.position ∧
        beyond.cursor.position ≠ there.cursor.position := by
  cases aligned with
  | @intro position _ _ _ _ _ =>
      cases inner with
      | @intro other _ _ _ _ _ =>
          by_cases same : other = position
          · subst same
            exact .inl ⟨rfl, rfl, rfl⟩
          · exact .inr ⟨same, same⟩

variable (joins : first.Joins rows second whole)

include joins

theorem current_of_going (going : here.current.kind ≠ .endOfFile) :
    there.current = here.current := by
  cases aligned with
  | @intro position bound _ _ _ _ => exact joins.front position (TokenSequence.within_of_going bound going)

theorem alike : here.current.kind.Alike there.current.kind := by
  by_cases ended : here.current.kind = .endOfFile
  · refine .inr ⟨ended, ?_⟩
    cases aligned with
    | intro bound _ _ => exact joins.kind_of_end bound ended
  · exact .inl (congrArg Token.kind (aligned.current_of_going joins ended)).symm

theorem starts : there.current.span.start = here.current.span.start := by
  cases aligned with
  | intro bound _ _ => exact joins.start_front bound

theorem previous_end : there.cursor.previousEnd = here.cursor.previousEnd := by
  have same := aligned.starts joins
  cases aligned with
  | @intro position bound _ _ _ _ =>
      unfold Cursor.previousEnd
      rw [joins.previous_end_front bound]
      exact congrArg (Option.getD _) same

theorem indentation : there.cursor.indentation = here.cursor.indentation := by
  cases aligned with
  | intro bound _ _ => exact joins.indentation_front bound

theorem merged (inner : Aligned first whole ahead beyond) :
    Aligned first whole (here.merge ahead) (there.merge beyond) ∧
      (here.merge ahead).cursor = ahead.cursor := by
  cases aligned with
  | @intro _ _ _ _ length fileName =>
      cases inner with
      | @intro position bound _ _ also _ =>
          have same : min position (first.size - 1) = position :=
            Nat.min_eq_left (Nat.le_sub_one_of_lt bound)
          have larger : min position (whole.size - 1) = position := by
            rw [joins.size]
            omega
          simp only [merge, Cursor.restore, same, larger]
          refine ⟨.intro bound ?_ fileName, trivial⟩
          rw [List.length_append, List.length_append, length, also]

theorem skipped {skipped : TokenKind → Bool}
    (within : (here.cursor.skipWhile skipped).current.kind ≠ .endOfFile ∨
      skipped .endOfLine = false) :
    Aligned first whole { here with cursor := here.cursor.skipWhile skipped }
      { there with cursor := there.cursor.skipWhile skipped } := by
  cases aligned with
  | @intro position bound _ _ length fileName =>
      have inside : Cursor.Inside ⟨first, position⟩ := bound
      have beyond : Cursor.Inside ⟨whole, position⟩ := by
        change position < whole.size
        rw [joins.size]
        exact Nat.lt_add_right _ bound
      have stops := Cursor.stops_skip_while skipped inside
      have moves := Cursor.skip_while_of_stops inside stops
      dsimp only at within
      rw [moves] at within
      rw [moves, Cursor.skip_while_of_stops beyond (joins.stops_front stops within)]
      exact .intro stops.inside length fileName

theorem advanced (going : here.current.kind ≠ .endOfFile) :
    Aligned first whole here.advance there.advance := by
  have same := aligned.current_of_going joins going
  cases aligned with
  | @intro position bound _ _ length fileName =>
      have here : Cursor.atEnd ⟨first, position⟩ = false := beq_false_of_ne going
      have there : Cursor.atEnd ⟨whole, position⟩ = false := by
        rw [← same] at going
        exact beq_false_of_ne going
      have inside : Cursor.Inside ⟨first, position⟩ := bound
      have next := Cursor.current_kind_of_not_end inside here
      have moved : Aligned first whole ⟨⟨first, position + 1⟩, _, fileName⟩
          ⟨⟨whole, position + 1⟩, _, fileName⟩ := .intro next length fileName
      have moved := @skipped _ _ _ _ _ _ moved joins TokenKind.isInlineTrivia (.inr rfl)
      unfold advance Cursor.advanceInline Cursor.advance
      rw [here, there]
      exact moved

end Aligned

/-- What the tokens in front of a cursor leave open. -/
def Leaves (context : ParsingContext) (nesting : Nesting) : Prop :=
  Nesting.outermost.through context.cursor.behind = some nesting

/-- At least so many parentheses are open at a cursor, which stands in front of no blank
and no comment, nor in the indentation of a row. -/
structure Nested (depth : Nat) (context : ParsingContext) : Prop where
  opens : ∃ nesting, context.Leaves nesting ∧ depth ≤ nesting.depth
  clear : context.current.kind.isTrivia = true → context.current.kind = .endOfLine

end ParsingContext

namespace TokenSequence

/-- What the tokens of a sequence open they close, and no operator waits at its end. -/
def Balanced (sequence : TokenSequence) : Prop :=
  Nesting.outermost.through (Cursor.behind ⟨sequence, sequence.size - 1⟩) = some .outermost

variable {sequence : TokenSequence}

/-- So it is at every place of the end, -/
theorem Balanced.at_end (balanced : sequence.Balanced)
    (going : ∀ index, index + 1 < sequence.size → (sequence.get index).kind ≠ .endOfFile)
    {index : Nat} (bound : index < sequence.size)
    (ended : (sequence.get index).kind = .endOfFile) :
    Nesting.outermost.through (Cursor.behind ⟨sequence, index⟩) = some .outermost := by
  have last : index = sequence.size - 1 := by
    by_contra early
    exact going index (by omega) ended
  rw [last]
  exact balanced

/-- and nowhere is anything closed that is not open. -/
theorem Balanced.leaves (balanced : sequence.Balanced) {index : Nat}
    (bound : index < sequence.size) :
    ∃ nesting, Nesting.outermost.through (Cursor.behind ⟨sequence, index⟩) = some nesting := by
  have split : Cursor.behind ⟨sequence, sequence.size - 1⟩ = Cursor.behind ⟨sequence, index⟩ ++
      ((((sequence.tokens.toList.take (sequence.size - 1)).drop index).map Token.kind).filter
        TokenKind.isSolid) := by
    unfold Cursor.behind
    dsimp only
    rw [← List.filter_append, ← List.map_append]
    congr 2
    conv => lhs; rw [← List.take_append_drop index (sequence.tokens.toList.take (sequence.size - 1))]
    rw [List.take_take, Nat.min_eq_left (by omega)]
  rw [Balanced, split, Nesting.through_append] at balanced
  rcases Option.bind_eq_some_iff.mp balanced with ⟨nesting, through, -⟩
  exact ⟨nesting, through⟩

/-- Behind a token that is moved past and the blanks that follow it no indentation stands. -/
theorem clear_behind_inline (indents : sequence.Indents) {index place : Nat}
    (solid : (sequence.get index).kind.isSolid = true)
    (stops : sequence.StopsAt TokenKind.isInlineTrivia (index + 1) place)
    (trivia : (sequence.get place).kind.isTrivia = true) :
    (sequence.get place).kind = .endOfLine := by
  have stopped := stops.stopped
  cases kind : (sequence.get place).kind with
  | endOfLine => rfl
  | blank =>
      rw [kind] at stopped
      rcases stopped with blank | ended
      · cases blank
      · cases ended
  | comment =>
      rw [kind] at stopped
      rcases stopped with blank | ended
      · cases blank
      · cases ended
  | indentation =>
      have behind := stops.behind
      obtain ⟨last, rfl⟩ : ∃ last, place = last + 1 := ⟨place - 1, by omega⟩
      have front := indents last stops.inside kind
      rcases Nat.eq_or_lt_of_le (Nat.le_of_succ_le_succ behind) with rfl | later
      · rcases front with row | step
        · rw [row] at solid
          cases solid
        · rw [step] at solid
          cases solid
      · have inline := (stops.passed last later (Nat.lt_succ_self _)).1
        rcases front with row | step
        · rw [row] at inline
          cases inline
        · rw [step] at inline
          cases inline
  | _ =>
      rw [kind] at trivia
      cases trivia

end TokenSequence

namespace Nesting

variable {nesting next : Nesting} {kind : TokenKind}

/-- Only parentheses change how many are open. -/
theorem depth_of_step (step : nesting.step kind = some next) :
    next.depth = kind.depthBehind nesting.depth := by
  cases kind with
  | punctuation mark =>
      cases mark with
      | closeParen =>
          simp only [Nesting.step] at step
          split at step
          · cases step
          · cases step
            rfl
      | _ =>
          cases step
          rfl
  | _ =>
      cases step
      rfl

theorem depth_behind_mono {less depth : Nat} (order : less ≤ depth) (kind : TokenKind) :
    kind.depthBehind less ≤ kind.depthBehind depth := by
  cases kind with
  | punctuation mark =>
      cases mark <;> simp only [TokenKind.depthBehind] <;> omega
  | _ => exact order

end Nesting

namespace ParsingContext

/-- Contexts at the same place of both runs, where at least so many parentheses are open. -/
structure Abreast (first whole : TokenSequence) (depth : Nat) (here there : ParsingContext) :
    Prop where
  aligned : Aligned first whole here there
  nested : here.Nested depth

variable {rows depth : Nat} {first second whole : TokenSequence}
  {here there ahead beyond : ParsingContext}

theorem Aligned.leaves (aligned : Aligned first whole here there) (balanced : first.Balanced) :
    ∃ nesting, here.Leaves nesting := by
  cases aligned with
  | intro bound _ _ => exact balanced.leaves bound

/-- At the end of the file nothing is open. -/
theorem Aligned.leaves_at_end (aligned : Aligned first whole here there)
    (balanced : first.Balanced) (joins : first.Joins rows second whole) {cursor : Cursor}
    (follows : here.cursor.Follows cursor) (ended : cursor.current.kind = .endOfFile) :
    Leaves { here with cursor } .outermost := by
  rcases cursor with ⟨sequence, position⟩
  cases aligned with
  | intro bound _ _ =>
      have same : sequence = first := follows.sequence
      subst same
      exact balanced.at_end joins.going follows.inside ended

/-- Blanks are moved past with the token in front of them, and no indentation follows it. -/
theorem Aligned.clear_behind (aligned : Aligned first whole here there) (indents : first.Indents)
    (solid : here.current.kind.isSolid = true) (trivia : here.advance.current.kind.isTrivia = true) :
    here.advance.current.kind = .endOfLine := by
  cases aligned with
  | @intro position bound reports _ _ fileName =>
      have going : (first.get position).kind ≠ .endOfFile := TokenKind.going_of_solid solid
      have next := TokenSequence.within_of_going bound going
      have inside : Cursor.Inside ⟨first, position + 1⟩ := next
      have here : Cursor.atEnd ⟨first, position⟩ = false := beq_false_of_ne going
      have stops := Cursor.stops_skip_while TokenKind.isInlineTrivia inside
      have moves := Cursor.skip_while_of_stops inside stops
      unfold advance Cursor.advanceInline Cursor.advance Cursor.skipInline at trivia ⊢
      rw [here] at trivia ⊢
      dsimp only at trivia ⊢
      rw [if_neg Bool.false_ne_true, moves] at trivia ⊢
      exact TokenSequence.clear_behind_inline indents solid stops trivia

theorem Aligned.nested_behind (aligned : Aligned first whole here there) (balanced : first.Balanced)
    (indents : first.Indents) (joins : first.Joins rows second whole)
    (solid : here.current.kind.isSolid = true) (nested : here.Nested depth) :
    here.advance.Nested (here.current.kind.depthBehind depth) := by
  rcases nested.opens with ⟨nesting, leaves, order⟩
  have going := TokenKind.going_of_solid solid
  rcases (aligned.advanced joins going).leaves balanced with ⟨next, more⟩
  refine ⟨⟨next, more, ?_⟩, aligned.clear_behind indents solid⟩
  have behind : here.advance.cursor.behind = here.cursor.behind ++ [here.current.kind] := by
    refine (Cursor.behind_advance_inline aligned.inside).trans ?_
    congr 1
    exact List.filter_cons_of_pos solid
  rw [Leaves, behind, Nesting.through_append, leaves] at more
  have step : nesting.step here.current.kind = some next := by
    rw [Option.bind_some, Nesting.through_cons] at more
    rcases Option.bind_eq_some_iff.mp more with ⟨last, step, same⟩
    cases same
    exact step
  rw [Nesting.depth_of_step step]
  exact Nesting.depth_behind_mono order _

/-- Where a parenthesis is open, the end of the file is not ahead. -/
theorem Aligned.going_in_parens (aligned : Aligned first whole here there)
    (balanced : first.Balanced) (joins : first.Joins rows second whole)
    (nested : here.Nested (depth + 1)) : here.skipLines.current.kind ≠ .endOfFile := by
  intro ended
  rcases nested.opens with ⟨nesting, leaves, order⟩
  have final := aligned.leaves_at_end balanced joins
    (Cursor.follows_skip_while TokenKind.isTrivia aligned.inside) ended
  rw [Leaves, Cursor.behind_skip_while (fun _ => TokenKind.solid_of_trivia) aligned.inside] at final
  rw [Leaves, final] at leaves
  cases leaves
  exact absurd order (Nat.not_succ_le_zero _)

/-- Nor is it behind an operator that waits for an operand. -/
theorem Aligned.going_behind_operator (aligned : Aligned first whole here there)
    (balanced : first.Balanced) (joins : first.Joins rows second whole) {spelt : Operator}
    (kind : here.current.kind = .operator spelt) (waits : spelt.bindingPower?.isSome = true) :
    here.advance.skipLines.current.kind ≠ .endOfFile := by
  intro ended
  have inside := aligned.inside
  have next : here.advance.cursor.Inside := (Cursor.follows_advance_inline inside).inside
  rcases aligned.leaves balanced with ⟨nesting, leaves⟩
  have final := aligned.leaves_at_end balanced joins
    ((Cursor.follows_advance_inline inside).trans
      (Cursor.follows_skip_while TokenKind.isTrivia next)) ended
  have behind : here.advance.cursor.behind = here.cursor.behind ++ [.operator spelt] := by
    refine (Cursor.behind_advance_inline inside).trans ?_
    change _ ++ here.current.kind.solid = _
    rw [kind]
    rfl
  have skipped : Cursor.behind (here.advance.cursor.skipWhile TokenKind.isTrivia) =
      here.advance.cursor.behind :=
    Cursor.behind_skip_while (fun _ => TokenKind.solid_of_trivia) next
  have open' : Nesting.outermost.through (here.cursor.behind ++ [.operator spelt]) =
      some .outermost := by
    rw [← behind, ← skipped]
    exact final
  rw [Nesting.through_append, leaves, Option.bind_some, Nesting.through_cons] at open'
  simp only [Nesting.step, Option.bind_some, Nesting.through_nil, waits] at open'
  have settled : true = false := congrArg Nesting.waiting (Option.some.inj open')
  cases settled

/-- Tokens that are not skipped are at hand behind what is skipped, unless the file ends
there. -/
theorem clear_behind_skipped {skipped : TokenKind → Bool} (inside : here.cursor.Inside)
    (clear : ∀ kind : TokenKind, skipped kind = false → kind.isTrivia = true → kind = .endOfLine)
    (trivia : (here.cursor.skipWhile skipped).current.kind.isTrivia = true) :
    (here.cursor.skipWhile skipped).current.kind = .endOfLine := by
  have stopped := (Cursor.stops_skip_while skipped inside).stopped
  have same : (here.cursor.skipWhile skipped).sequence = here.cursor.sequence :=
    Cursor.sequence_skip_within skipped _ here.cursor
  rw [← same] at stopped
  rcases stopped with stays | ended
  · exact clear _ stays trivia
  · have kind : (here.cursor.skipWhile skipped).current.kind = .endOfFile := ended
    rw [kind] at trivia
    cases trivia

/-- Line ends that reach to the end of the first file are skipped on into the second one. -/
theorem Aligned.lines_across (aligned : Aligned first whole here there)
    (joins : first.Joins rows second whole) (ended : here.skipLines.current.kind = .endOfFile) :
    ∃ place, second.StopsAt TokenKind.isTrivia 0 place ∧
      there.skipLines = { there with cursor := ⟨whole, first.size + place⟩ } := by
  cases aligned with
  | @intro position bound _ _ _ _ =>
      have inside : Cursor.Inside ⟨first, position⟩ := bound
      have beyond : Cursor.Inside ⟨whole, position⟩ := by
        change position < whole.size
        rw [joins.size]
        exact Nat.lt_add_right _ bound
      have stops := Cursor.stops_skip_while TokenKind.isTrivia inside
      have moves := Cursor.skip_while_of_stops inside stops
      have front := @Cursor.stops_skip_while ⟨second, 0⟩ TokenKind.isTrivia second.size_pos
      refine ⟨_, front, ?_⟩
      unfold skipLines Cursor.skipLines at ended ⊢
      dsimp only at ended ⊢
      rw [moves] at ended
      rw [Cursor.skip_while_of_stops beyond (joins.stops_across stops ended rfl front)]

/-- Behind line ends at the end of the first file stands what the second one begins with. -/
theorem Aligned.begins_second {unlike : TokenKind} (aligned : Aligned first whole here there)
    (joins : first.Joins rows second whole)
    (begins : ∀ place, second.StopsAt TokenKind.isTrivia 0 place →
      (second.get place).kind ≠ unlike)
    (ended : here.skipLines.current.kind = .endOfFile) :
    there.skipLines.current.kind ≠ unlike := by
  rcases aligned.lines_across joins ended with ⟨place, front, skipped⟩
  have same := joins.back place front.inside
  rw [skipped]
  unfold ParsingContext.current Cursor.current
  rw [same]
  exact begins _ front

/-- Behind line ends both are in front of the same token, or the first file ends. -/
theorem Aligned.ready_or_ended (aligned : Aligned first whole here there)
    (joins : first.Joins rows second whole) :
    Aligned first whole here.skipLines there.skipLines ∧
        here.skipLines.current.kind.isSolid = true ∨
      here.skipLines.current.kind = .endOfFile := by
  by_cases ended : here.skipLines.current.kind = .endOfFile
  · exact .inr ended
  · exact .inl ⟨@Aligned.skipped _ _ _ _ _ _ aligned joins TokenKind.isTrivia (.inl ended),
      solid_behind_lines aligned.inside ended⟩

/-- Skipping to some tokens, outside of parentheses. -/
theorem Aligned.skip_until (aligned : Aligned first whole here there)
    (joins : first.Joins rows second whole) (balanced : first.Balanced) {stops : TokenKind → Bool}
    (silent : stops .blank = false ∧ stops .comment = false ∧ stops .indentation = false)
    (within : (here.skipUntil stops).current.kind ≠ .endOfFile ∨ stops .endOfLine = true) :
    Abreast first whole 0 (here.skipUntil stops) (there.skipUntil stops) := by
  have inside := aligned.inside
  have moved := @Aligned.skipped _ _ _ _ _ _ aligned joins (fun kind => !stops kind)
    (within.imp_right fun row => by rw [row]; rfl)
  refine ⟨moved, ?_, ?_⟩
  · rcases moved.leaves balanced with ⟨nesting, leaves⟩
    exact ⟨nesting, leaves, Nat.zero_le _⟩
  · apply clear_behind_skipped inside
    intro kind stays trivia
    rw [Bool.not_eq_false'] at stays
    cases kind with
    | endOfLine => rfl
    | blank => exact absurd (silent.1.symm.trans stays) Bool.false_ne_true
    | comment => exact absurd (silent.2.1.symm.trans stays) Bool.false_ne_true
    | indentation => exact absurd (silent.2.2.symm.trans stays) Bool.false_ne_true
    | _ => cases trivia

theorem Aligned.skip_to_item (aligned : Aligned first whole here there)
    (joins : first.Joins rows second whole) (balanced : first.Balanced) :
    Abreast first whole 0 (here.skipUntil Parser.startsItem) (there.skipUntil Parser.startsItem) ∨
      (here.skipUntil Parser.startsItem).current.kind = .endOfFile := by
  by_cases ended : (here.skipUntil Parser.startsItem).current.kind = .endOfFile
  · exact .inr ended
  · exact .inl (aligned.skip_until joins balanced ⟨rfl, rfl, rfl⟩ (.inl ended))

namespace Abreast

variable (abreast : Abreast first whole depth here there)

include abreast

theorem shallower {less : Nat} (order : less ≤ depth) : Abreast first whole less here there := by
  rcases abreast.nested.opens with ⟨nesting, leaves, deep⟩
  exact ⟨abreast.aligned, ⟨nesting, leaves, Nat.le_trans order deep⟩, abreast.nested.clear⟩

variable (joins : first.Joins rows second whole)

include joins

theorem merged {below : Nat} (inner : Abreast first whole below ahead beyond) :
    Abreast first whole below (here.merge ahead) (there.merge beyond) := by
  rcases abreast.aligned.merged joins inner.aligned with ⟨aligned, same⟩
  have nested := inner.nested
  refine ⟨aligned, ?_, ?_⟩
  · unfold Leaves
    rw [same]
    exact nested.opens
  · unfold ParsingContext.current
    rw [same]
    exact nested.clear

/-- Skipping line ends that the end of the file is not behind. -/
theorem skip_lines (going : here.skipLines.current.kind ≠ .endOfFile) :
    Abreast first whole depth here.skipLines there.skipLines := by
  have inside := abreast.aligned.inside
  have aligned := @Aligned.skipped _ _ _ _ _ _ abreast.aligned joins TokenKind.isTrivia (.inl going)
  refine ⟨aligned, ?_, ?_⟩
  · unfold Leaves
    have same : here.skipLines.cursor.behind = here.cursor.behind :=
      Cursor.behind_skip_while (fun _ => TokenKind.solid_of_trivia) inside
    rw [same]
    exact abreast.nested.opens
  · apply clear_behind_skipped inside
    intro kind stays trivia
    rw [stays] at trivia
    cases trivia

variable (balanced : first.Balanced)

include balanced

variable (indents : first.Indents)

include indents

theorem advanced (solid : here.current.kind.isSolid = true) :
    Abreast first whole (here.current.kind.depthBehind depth) here.advance there.advance :=
  ⟨abreast.aligned.advanced joins (TokenKind.going_of_solid solid),
    abreast.aligned.nested_behind balanced indents joins solid abreast.nested⟩

omit balanced indents

/-- Line ends are skipped in both runs, or the first one is at the end of its file; then it
skips some only from a line end on, and behind them is what the second file begins with. -/
theorem skipped_or_ended (begins : ∀ place, second.StopsAt TokenKind.isTrivia 0 place →
      (second.get place).kind ≠ .keyword .elseWord) :
    Abreast first whole depth here.skipLines there.skipLines ∧
        here.skipLines.current.kind = there.skipLines.current.kind ∨
      (here.current.kind = .endOfLine ∨ here.current.kind = .endOfFile) ∧
        here.skipLines.current.kind = .endOfFile ∧
        there.skipLines.current.kind ≠ .keyword .elseWord := by
  by_cases ended : here.skipLines.current.kind = .endOfFile
  · refine .inr ⟨?_, ended, ?_⟩
    · by_cases trivia : here.current.kind.isTrivia = true
      · exact .inl (abreast.nested.clear trivia)
      · -- What is no line end is not skipped.
        have stays : here.skipLines = here := by
          have inside := abreast.aligned.inside
          rw [Bool.not_eq_true] at trivia
          have stops : here.cursor.sequence.StopsAt TokenKind.isTrivia here.cursor.position
              here.cursor.position :=
            ⟨Nat.le_refl _, inside, fun _ lower upper => absurd upper (Nat.not_lt.mpr lower),
              .inl trivia⟩
          exact congrArg (fun cursor => { here with cursor }) (Cursor.skip_while_of_stops inside stops)
        rw [stays] at ended
        exact .inr ended
    · exact abreast.aligned.begins_second joins begins ended
  · have skipped := abreast.skip_lines joins ended
    exact .inl ⟨skipped, (congrArg Token.kind (skipped.aligned.current_of_going joins ended)).symm⟩

end Abreast

end ParsingContext

namespace Coupling

open ParsingContext

/-- A run over a file beside one over a whole that it is the first part of, where the
second part does not begin with a clause of a condition. -/
def front {rows : Nat} {first second whole : TokenSequence} (joins : first.Joins rows second whole)
    (balanced : first.Balanced) (indents : first.Indents)
    (begins : ∀ place, second.StopsAt TokenKind.isTrivia 0 place →
      (second.get place).kind ≠ .keyword .elseWord) : Coupling where
  ids := 0
  rows := 0
  lenient := True
  trees here there := there = here
  beside := Abreast first whole
  ready here there := Aligned first whole here there ∧ here.current.kind.isSolid = true
  apart here there := Aligned first whole here there ∧
    here.skipLines.current.kind = .endOfFile
  size := SourceTree.size_of_same
  kind := SourceTree.kind_of_same
  grown := SourceTree.grown_of_same
  inside abreast := abreast.aligned.inside
  alike abreast := abreast.aligned.alike joins
  starts abreast := abreast.aligned.starts joins
  ends abreast := abreast.aligned.previous_end joins
  indented abreast := abreast.aligned.indentation joins
  shallower order abreast := abreast.shallower order
  reportedHere abreast kind := ⟨abreast.aligned.reported kind _ _, abreast.nested.opens, abreast.nested.clear⟩
  reported abreast kind span := ⟨abreast.aligned.reported kind _ _, abreast.nested.opens, abreast.nested.clear⟩
  forked abreast := ⟨abreast.aligned.forked, abreast.nested.opens, abreast.nested.clear⟩
  merged abreast inner := abreast.merged joins inner
  advanced abreast solid := abreast.advanced joins balanced indents solid
  grouped abreast := abreast.skip_lines joins
    (abreast.aligned.going_in_parens balanced joins abreast.nested)
  waited abreast kind waits := by
    have advanced := abreast.advanced joins balanced indents (by rw [kind]; rfl)
    rw [kind] at advanced
    exact advanced.skip_lines joins
      (abreast.aligned.going_behind_operator balanced joins kind waits)
  skipped abreast := (abreast.skipped_or_ended joins begins).imp_right fun ended => ⟨trivial, ended⟩
  finished abreast := abreast.aligned.skip_until joins balanced ⟨rfl, rfl, rfl⟩ (.inr rfl)
  recovered abreast := (abreast.aligned.skip_to_item joins balanced).imp_right fun ended =>
    ⟨trivial, ended⟩
  readied abreast := (abreast.aligned.ready_or_ended joins).imp_right fun ended =>
    ⟨trivial, abreast.aligned, ended⟩
  apartEnded apart := apart.2
  readyKind ready := congrArg Token.kind
    (ready.1.current_of_going joins (TokenKind.going_of_solid ready.2))
  readySolid ready _ := ready.2
  readyStarts ready := ready.1.starts joins
  readyAdvanced ready solid := by
    rcases ready.1.leaves balanced with ⟨nesting, leaves⟩
    have abreast : Abreast first whole 0 _ _ := ⟨ready.1, ⟨nesting, leaves, Nat.zero_le _⟩, by
      intro trivia
      rw [TokenKind.isSolid, trivia] at solid
      cases solid⟩
    exact (abreast.advanced joins balanced indents solid).shallower (Nat.zero_le _)
  readyPassed ready _ _ := (ready.1.skip_to_item joins balanced).imp_right fun ended =>
    ⟨trivial, ended⟩
  readyMoved ready abreast := ready.1.moved abreast.aligned

end Coupling

end ModuleLang
