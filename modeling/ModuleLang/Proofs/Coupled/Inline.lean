import ModuleLang.Proofs.Coupled.Declaration
import ModuleLang.Proofs.Parsing.Declaration
import ModuleLang.Proofs.Token.Rows

/-!
Blanks and comments do not matter to the parser. A place of a sequence corresponds to the
number of tokens in front of it that are neither; skipping, looking back and counting the
indentation of a row give corresponding results, so that two runs over the sequence and
over what is left of it go on in step.
-/

namespace ModuleLang

namespace TokenSequence

/-- A token that is neither a blank nor a comment. -/
def isKept (token : Token) : Bool := !token.kind.isInlineTrivia

/-- The same tokens at the same positions of the text, without blanks and comments. -/
def withoutInline (sequence : TokenSequence) : TokenSequence :=
  ofTokens (sequence.tokens.filter isKept)

/-- How many tokens in front of an index are neither blanks nor comments. -/
def rank (sequence : TokenSequence) (index : Nat) : Nat :=
  ((sequence.tokens.toList.take index).filter isKept).length

variable {sequence : TokenSequence} {index : Nat}

theorem tokens_without_inline (sequence : TokenSequence) :
    sequence.withoutInline.tokens = sequence.tokens.filter isKept := by
  have closed : (sequence.tokens.filter isKept).back?.map Token.kind = some .endOfFile := by
    have last := sequence.terminated
    rcases sequence with ⟨⟨tokens⟩, terminated⟩
    rw [List.filter_toArray, List.back?_toArray]
    rw [List.back?_toArray] at last
    rcases List.eq_nil_or_concat tokens with rfl | ⟨before, token, rfl⟩
    · cases last
    · rw [List.concat_eq_append, List.getLast?_concat] at last
      have kept : isKept token = true := by
        rw [isKept, Option.some.inj last]
        rfl
      rw [List.concat_eq_append, List.filter_append, List.filter_singleton, kept]
      simpa using last
  unfold withoutInline ofTokens
  rw [dif_pos closed]

theorem take_succ (bound : index < sequence.size) : sequence.tokens.toList.take (index + 1) =
    sequence.tokens.toList.take index ++ [sequence.get index] := by
  rw [List.take_add_one, get_of_list bound]
  rfl

theorem split_at (bound : index < sequence.size) : sequence.tokens.toList =
    sequence.tokens.toList.take index ++ sequence.get index ::
      sequence.tokens.toList.drop (index + 1) := by
  rw [List.append_cons, ← take_succ bound, List.take_append_drop]

theorem rank_of_kept (bound : index < sequence.size)
    (kept : isKept (sequence.get index) = true) :
    sequence.rank (index + 1) = sequence.rank index + 1 := by
  unfold rank
  rw [take_succ bound, List.filter_append, List.filter_singleton, kept]
  simp

theorem rank_of_inline (bound : index < sequence.size)
    (inline : isKept (sequence.get index) = false) :
    sequence.rank (index + 1) = sequence.rank index := by
  unfold rank
  rw [take_succ bound, List.filter_append, List.filter_singleton, inline]
  simp

theorem rank_mono {first second : Nat} (order : first ≤ second) :
    sequence.rank first ≤ sequence.rank second := by
  unfold rank
  exact ((List.take_sublist_take_left order).filter _).length_le

/-- A token that is kept is found at the number of those in front of it. -/
theorem get_rank (bound : index < sequence.size) (kept : isKept (sequence.get index) = true) :
    sequence.rank index < sequence.withoutInline.size ∧
      sequence.withoutInline.get (sequence.rank index) = sequence.get index := by
  have split : sequence.withoutInline.tokens.toList =
      (sequence.tokens.toList.take index).filter isKept ++ sequence.get index ::
        (sequence.tokens.toList.drop (index + 1)).filter isKept := by
    rw [tokens_without_inline, Array.toList_filter]
    conv => lhs; rw [split_at bound]
    rw [List.filter_append, List.filter_cons_of_pos kept]
  have inside : sequence.rank index < sequence.withoutInline.size := by
    unfold rank size
    rw [← Array.length_toList, split, List.length_append, List.length_cons]
    omega
  refine ⟨inside, ?_⟩
  apply Option.some.inj
  rw [← get_of_list inside, split]
  unfold rank
  rw [List.getElem?_append_right (Nat.le_refl _), Nat.sub_self]
  rfl
theorem kept_of_end (ended : (sequence.get index).kind = .endOfFile) :
    isKept (sequence.get index) = true := by
  rw [isKept, ended]
  rfl

/-- Skipping blanks and comments with other tokens stops at corresponding places. -/
theorem stops_at_rank {skipped : TokenKind → Bool} {first place : Nat}
    (inline : ∀ kind : TokenKind, kind.isInlineTrivia = true → skipped kind = true)
    (stops : sequence.StopsAt skipped first place) :
    isKept (sequence.get place) = true ∧
      sequence.withoutInline.StopsAt skipped (sequence.rank first) (sequence.rank place) := by
  have kept : isKept (sequence.get place) = true := by
    rcases stops.stopped with solid | ended
    · rw [isKept, Bool.not_eq_true']
      cases blank : (sequence.get place).kind.isInlineTrivia with
      | false => rfl
      | true =>
          rw [inline _ blank] at solid
          cases solid
    · exact kept_of_end ended
  refine ⟨kept, ?_⟩
  rcases Nat.exists_eq_add_of_le stops.behind with ⟨count, same⟩
  induction count generalizing first with
  | zero =>
      obtain rfl : place = first := same
      have found := get_rank stops.inside kept
      refine ⟨Nat.le_refl _, found.1, by intro index lower upper; omega, ?_⟩
      rw [found.2]
      exact stops.stopped
  | succ count ih =>
      have bound : first < sequence.size := by
        have inside := stops.inside
        omega
      have passed := stops.passed first (Nat.le_refl _) (by omega)
      have rest : sequence.StopsAt skipped (first + 1) place :=
        ⟨by omega, stops.inside, fun index lower upper =>
          stops.passed index (by omega) upper, stops.stopped⟩
      have later := ih rest (by omega)
      cases own : isKept (sequence.get first) with
      | false =>
          rw [rank_of_inline bound own] at later
          exact later
      | true =>
          have found := get_rank bound own
          rw [rank_of_kept bound own] at later
          refine ⟨by have := later.behind; omega, later.inside, ?_, later.stopped⟩
          intro index lower upper
          rcases Nat.eq_or_lt_of_le lower with rfl | behind
          · rw [found.2]
            exact passed
          · exact later.passed index behind upper

theorem LaidOut.without_inline {limit : Position} (laid : sequence.LaidOut limit) :
    sequence.withoutInline.LaidOut limit := by
  have same : sequence.withoutInline.tokens.toList = sequence.tokens.toList.filter isKept := by
    rw [tokens_without_inline, Array.toList_filter]
  have placed : ∀ token ∈ sequence.tokens.toList.filter isKept,
      ∃ index, sequence.get index = token := by
    intro token member
    rcases List.mem_iff_getElem.mp (List.mem_of_mem_filter member) with ⟨index, bound, rfl⟩
    exact ⟨index, get_of_bound bound⟩
  apply laid_out_of_list
  · rw [same]
    apply List.Pairwise.filter
    rw [List.pairwise_iff_getElem]
    intro first second inside bound before
    have earlier := @get_of_bound sequence first inside
    have later := @get_of_bound sequence second bound
    have apart := laid.apart before bound
    rw [earlier, later] at apart
    exact apart
  · rw [same]
    intro token member
    obtain ⟨index, rfl⟩ := placed token member
    exact laid.inside index
  · rw [same]
    intro token member
    obtain ⟨index, rfl⟩ := placed token member
    exact laid.filled index

end TokenSequence

namespace Cursor

open TokenSequence

variable {sequence : TokenSequence} {index : Nat}

theorem previous_end_rank (bound : index ≤ sequence.size) :
    previousEnd? sequence.withoutInline (sequence.rank index) = previousEnd? sequence index := by
  induction index with
  | zero => rfl
  | succ index ih =>
      have inside : index < sequence.size := bound
      have earlier := ih (Nat.le_of_lt inside)
      cases own : isKept (sequence.get index) with
      | false =>
          have trivia : (sequence.get index).isTrivia = true := by
            rw [isKept, Bool.not_eq_false'] at own
            unfold Token.isTrivia
            cases kind : (sequence.get index).kind with
            | blank => rfl
            | comment => rfl
            | _ =>
                rw [kind] at own
                cases own
          rw [rank_of_inline inside own, earlier]
          conv => rhs; rw [previousEnd?]
          simp only [trivia, if_true]
      | true =>
          rw [rank_of_kept inside own, previousEnd?, previousEnd?, (get_rank inside own).2, earlier]

theorem row_start_rank (bound : index ≤ sequence.size) :
    rowStart sequence.withoutInline (sequence.rank index) =
      sequence.rank (rowStart sequence index) := by
  induction index with
  | zero => rfl
  | succ index ih =>
      have inside : index < sequence.size := bound
      have earlier := ih (Nat.le_of_lt inside)
      cases own : isKept (sequence.get index) with
      | false =>
          have going : ((sequence.get index).kind == .endOfLine) = false := by
            rw [isKept, Bool.not_eq_false'] at own
            cases kind : (sequence.get index).kind with
            | blank => rfl
            | comment => rfl
            | _ =>
                rw [kind] at own
                cases own
          rw [rank_of_inline inside own, earlier]
          conv => rhs; rw [rowStart]
          simp only [going, Bool.false_eq_true, if_false]
      | true =>
          rw [rank_of_kept inside own, rowStart, rowStart, (get_rank inside own).2, earlier]
          split
          · rw [rank_of_kept inside own]
          · rfl

/-- The first token from an index on that is kept. -/
theorem next_kept (bound : index < sequence.size) : ∃ place,
    sequence.StopsAt TokenKind.isInlineTrivia index place :=
  ⟨_, @stops_skip_while ⟨sequence, index⟩ TokenKind.isInlineTrivia bound⟩

theorem rank_lt (bound : index < sequence.size) :
    sequence.rank index < sequence.withoutInline.size := by
  rcases next_kept bound with ⟨place, stops⟩
  have later := (stops_at_rank (fun _ inline => inline) stops).2
  exact Nat.lt_of_le_of_lt later.behind later.inside

/-- Behind a blank or a comment no indentation begins. -/
theorem no_indentation_behind (indents : sequence.Indents) (bound : index < sequence.size)
    (inline : isKept (sequence.get index) = false) :
    (sequence.withoutInline.get (sequence.rank index)).kind ≠ .indentation := by
  rcases next_kept bound with ⟨place, stops⟩
  rcases stops_at_rank (fun _ inline => inline) stops with ⟨kept, also⟩
  intro found
  rcases Nat.eq_or_lt_of_le also.behind with same | before
  · rw [same, (get_rank stops.inside kept).2] at found
    have behind : index < place := by
      rcases Nat.eq_or_lt_of_le stops.behind with equal | less
      · rw [equal, kept] at inline
        cases inline
      · exact less
    obtain ⟨last, rfl⟩ : ∃ last, place = last + 1 := ⟨place - 1, by omega⟩
    have blank := (stops.passed last (by omega) (Nat.lt_succ_self _)).1
    rcases indents last stops.inside found with row | step
    · rw [row] at blank
      cases blank
    · rw [step] at blank
      cases blank
  · have blank := (also.passed _ (Nat.le_refl _) before).1
    rw [found] at blank
    cases blank

theorem indentation_from_rank (indents : sequence.Indents) {budget other : Nat}
    (bound : index < sequence.size) (enough : sequence.size - index ≤ budget)
    (also : sequence.withoutInline.size - sequence.rank index ≤ other) :
    indentationFrom sequence.withoutInline other (sequence.rank index) =
      indentationFrom sequence budget index := by
  induction budget generalizing index other with
  | zero => omega
  | succ budget ih =>
      have below := rank_lt bound
      obtain ⟨other, rfl⟩ : ∃ less, other = less + 1 := ⟨other - 1, by omega⟩
      unfold indentationFrom
      cases own : isKept (sequence.get index) with
      | false =>
          have here : ((sequence.get index).kind == .indentation) = false := by
            rw [beq_eq_false_iff_ne]
            intro step
            rw [isKept, step] at own
            cases own
          have there := beq_eq_false_iff_ne.mpr (no_indentation_behind indents bound own)
          rw [here, there]
          rfl
      | true =>
          rw [(get_rank bound own).2]
          split
          · rename_i step
            have next : index + 1 < sequence.size := by
              apply @current_kind_of_not_end ⟨sequence, index⟩ bound
              rw [atEnd, current, eq_of_beq step]
              rfl
            have less : sequence.withoutInline.size - sequence.rank (index + 1) ≤ other := by
              rw [rank_of_kept bound own]
              omega
            rw [← rank_of_kept bound own, ih next (by omega) less]
          · rfl

/-- A row is indented as it is without blanks and comments. -/
theorem indentation_rank (indents : sequence.Indents) (bound : index < sequence.size) :
    indentation ⟨sequence.withoutInline, sequence.rank index⟩ = indentation ⟨sequence, index⟩ := by
  have first := Nat.lt_of_le_of_lt (row_start_le sequence index) bound
  unfold indentation
  dsimp only
  rw [row_start_rank (Nat.le_of_lt bound)]
  exact indentation_from_rank indents first (Nat.le_refl _) (Nat.le_refl _)

end Cursor

namespace ParsingContext

open TokenSequence

/-- Contexts at corresponding places of a sequence and of what is left of it. -/
inductive Level (sequence : TokenSequence) : ParsingContext → ParsingContext → Prop
  | intro {position : Nat} (bound : position < sequence.size) (diagnostics : List Diagnostic)
      (fileName : String) : Level sequence ⟨⟨sequence, position⟩, diagnostics, fileName⟩
        ⟨⟨sequence.withoutInline, sequence.rank position⟩, diagnostics, fileName⟩

/-- Contexts in front of the same token. -/
inductive Reduced (sequence : TokenSequence) : ParsingContext → ParsingContext → Prop
  | intro {position : Nat} (bound : position < sequence.size)
      (kept : isKept (sequence.get position) = true) (diagnostics : List Diagnostic)
      (fileName : String) : Reduced sequence ⟨⟨sequence, position⟩, diagnostics, fileName⟩
        ⟨⟨sequence.withoutInline, sequence.rank position⟩, diagnostics, fileName⟩

variable {sequence : TokenSequence} {here there ahead beyond : ParsingContext}

namespace Reduced

theorem inside (reduced : Reduced sequence here there) : here.cursor.Inside := by
  cases reduced with
  | intro bound kept diagnostics fileName => exact bound

theorem level (reduced : Reduced sequence here there) : Level sequence here there := by
  cases reduced with
  | intro bound _ diagnostics fileName => exact .intro bound diagnostics fileName

theorem current (reduced : Reduced sequence here there) : there.current = here.current := by
  cases reduced with
  | intro bound kept diagnostics fileName => exact (get_rank bound kept).2

theorem diagnostics (reduced : Reduced sequence here there) :
    there.diagnostics = here.diagnostics := by
  cases reduced with
  | intro _ _ diagnostics fileName => rfl

theorem previous_end (reduced : Reduced sequence here there) :
    there.cursor.previousEnd = here.cursor.previousEnd := by
  cases reduced with
  | intro bound kept diagnostics fileName =>
      unfold Cursor.previousEnd Cursor.current
      rw [Cursor.previous_end_rank (Nat.le_of_lt bound), (get_rank bound kept).2]

theorem indentation (reduced : Reduced sequence here there) (indents : sequence.Indents) :
    there.cursor.indentation = here.cursor.indentation := by
  cases reduced with
  | intro bound kept diagnostics fileName => exact Cursor.indentation_rank indents bound

theorem reported (reduced : Reduced sequence here there) (kind : DiagnosticKind) (span : Span) :
    Reduced sequence (here.report kind span) (there.report kind span) := by
  cases reduced with
  | intro bound kept diagnostics fileName => exact .intro bound kept _ _

theorem forked (reduced : Reduced sequence here there) :
    Reduced sequence here.fork there.fork := by
  cases reduced with
  | intro bound kept diagnostics fileName => exact .intro bound kept _ _

theorem merged (reduced : Reduced sequence here there) (inner : Reduced sequence ahead beyond) :
    Reduced sequence (here.merge ahead) (there.merge beyond) := by
  cases reduced with
  | intro _ _ diagnostics fileName =>
      cases inner with
      | @intro position bound kept reports otherName =>
          have same : min position (sequence.size - 1) = position :=
            Nat.min_eq_left (Nat.le_sub_one_of_lt bound)
          have also : min (sequence.rank position) (sequence.withoutInline.size - 1) =
              sequence.rank position :=
            Nat.min_eq_left (Nat.le_sub_one_of_lt (Cursor.rank_lt bound))
          simp only [merge, Cursor.restore, same, also]
          exact .intro bound kept _ _

/-- Whether a cursor moved is seen at both places. -/
theorem moved (reduced : Reduced sequence here there) (inner : Reduced sequence ahead beyond) :
    (ahead.cursor.position = here.cursor.position ∧
        beyond.cursor.position = there.cursor.position ∧ ahead.current.kind = here.current.kind) ∨
      ahead.cursor.position ≠ here.cursor.position ∧
        beyond.cursor.position ≠ there.cursor.position := by
  cases reduced with
  | @intro position bound kept diagnostics fileName =>
      cases inner with
      | @intro other inside also reports otherName =>
          dsimp only
          rcases Nat.lt_trichotomy other position with before | rfl | behind
          · have less := rank_of_kept inside also
            have order : sequence.rank (other + 1) ≤ sequence.rank position := rank_mono before
            exact .inr ⟨by omega, by omega⟩
          · exact .inl ⟨rfl, rfl, rfl⟩
          · have less := rank_of_kept bound kept
            have order : sequence.rank (position + 1) ≤ sequence.rank other := rank_mono behind
            exact .inr ⟨by omega, by omega⟩

end Reduced

theorem Level.skipped {skipped : TokenKind → Bool} (level : Level sequence here there)
    (inline : ∀ kind : TokenKind, kind.isInlineTrivia = true → skipped kind = true) :
    Reduced sequence { here with cursor := here.cursor.skipWhile skipped }
      { there with cursor := there.cursor.skipWhile skipped } := by
  cases level with
  | @intro position bound diagnostics fileName =>
      have stops := @Cursor.stops_skip_while ⟨sequence, position⟩ skipped bound
      rcases stops_at_rank inline stops with ⟨kept, also⟩
      have inside : Cursor.Inside ⟨sequence, position⟩ := bound
      have below : Cursor.Inside ⟨sequence.withoutInline, sequence.rank position⟩ :=
        Cursor.rank_lt bound
      rw [Cursor.skip_while_of_stops inside stops, Cursor.skip_while_of_stops below also]
      exact .intro stops.inside kept diagnostics fileName

/-- Behind line ends both are in front of the end of the file or of a token that is moved
past. -/
theorem ready_behind_lines (level : Level sequence here there) :
    Reduced sequence here.skipLines there.skipLines ∧
      (here.skipLines.current.kind = .endOfFile ∨ here.skipLines.current.kind.isSolid = true) := by
  refine ⟨level.skipped ?_, ?_⟩
  · intro kind inline
    cases kind <;> first | rfl | cases inline
  rw [or_iff_not_imp_left]
  cases level with
  | intro bound diagnostics fileName => exact solid_behind_lines bound

theorem Reduced.skip_lines (reduced : Reduced sequence here there) :
    Reduced sequence here.skipLines there.skipLines :=
  (ready_behind_lines reduced.level).1

theorem Reduced.advanced (reduced : Reduced sequence here there)
    (going : here.current.kind ≠ .endOfFile) :
    Reduced sequence here.advance there.advance := by
  have same := reduced.current
  cases reduced with
  | @intro position bound kept diagnostics fileName =>
      have here : Cursor.atEnd ⟨sequence, position⟩ = false := beq_false_of_ne going
      have there : Cursor.atEnd ⟨sequence.withoutInline, sequence.rank position⟩ = false := by
        rw [← same] at going
        exact beq_false_of_ne going
      have inside : Cursor.Inside ⟨sequence, position⟩ := bound
      have next := Cursor.current_kind_of_not_end inside here
      have level : Level sequence ⟨⟨sequence, position + 1⟩, diagnostics, fileName⟩
          ⟨⟨sequence.withoutInline, sequence.rank (position + 1)⟩, diagnostics, fileName⟩ :=
        .intro next diagnostics fileName
      have moved := level.skipped fun _ inline => inline
      rw [rank_of_kept bound kept] at moved
      unfold advance Cursor.advanceInline Cursor.advance
      rw [here, there]
      exact moved

theorem Reduced.skip_until {stops : TokenKind → Bool} (reduced : Reduced sequence here there)
    (inline : ∀ kind : TokenKind, kind.isInlineTrivia = true → stops kind = false) :
    Reduced sequence (here.skipUntil stops) (there.skipUntil stops) :=
  reduced.level.skipped fun kind blank => by rw [inline kind blank, Bool.not_false]

end ParsingContext

namespace Parser

variable {kind : TokenKind} (blank : kind.isInlineTrivia = true)

include blank

theorem ends_statement_of_inline : ParsingContext.endsStatement kind = false := by
  cases kind <;> first | rfl | cases blank

theorem starts_item_of_inline : startsItem kind = false := by
  cases kind <;> first | rfl | cases blank

end Parser

namespace Coupling

open ParsingContext

/-- A run over a sequence beside one over what is left of it without blanks and
comments. -/
def inline (sequence : TokenSequence) (indents : sequence.Indents) : Coupling where
  ids := 0
  rows := 0
  lenient := False
  trees here there := there = here
  beside _ here there := Reduced sequence here there
  ready here there := Reduced sequence here there ∧
    (here.current.kind = .endOfFile ∨ here.current.kind.isSolid = true)
  apart _ _ := False
  size := SourceTree.size_of_same
  kind := SourceTree.kind_of_same
  grown := SourceTree.grown_of_same
  inside := Reduced.inside
  alike reduced := .inl (congrArg Token.kind reduced.current).symm
  starts reduced := congrArg (fun token : Token => token.span.start) reduced.current
  ends reduced := reduced.previous_end
  indented reduced := reduced.indentation indents
  shallower _ reduced := reduced
  reportedHere reduced kind := by
    unfold reportHere
    rw [reduced.current]
    exact reduced.reported kind _
  reported reduced kind span := reduced.reported kind span
  forked reduced := reduced.forked
  merged reduced inner := reduced.merged inner
  advanced reduced solid := reduced.advanced (TokenKind.going_of_solid solid)
  grouped reduced := reduced.skip_lines
  waited reduced kind _ := (reduced.advanced (TokenKind.going_of_operator kind)).skip_lines
  skipped reduced := .inl
    ⟨reduced.skip_lines, (congrArg Token.kind reduced.skip_lines.current).symm⟩
  finished reduced := reduced.skip_until fun _ => Parser.ends_statement_of_inline
  recovered reduced := .inl (reduced.skip_until fun _ => Parser.starts_item_of_inline)
  readied reduced := .inl (ready_behind_lines reduced.level)
  apartEnded := ParsingContext.ended_of_never
  readyKind ready := congrArg Token.kind ready.1.current
  readySolid ready going := ready.2.resolve_left going
  readyStarts ready := congrArg (fun token : Token => token.span.start) ready.1.current
  readyAdvanced ready solid := ready.1.advanced (TokenKind.going_of_solid solid)
  readyPassed ready _ _ := .inl (ready.1.skip_until fun _ => Parser.starts_item_of_inline)
  readyMoved ready reduced := ready.1.moved reduced

end Coupling

namespace Parser

open ParserState

/-- The same action on the same tree. -/
theorem together_on_tree {value : Type} {action : SourceTree.Action value} {start other : ParserState}
    (same : other.tree = start.tree) :
    Together (onTree action) (onTree action) start other fun value final image last =>
      image = value ∧ last.tree = final.tree ∧ final.context = start.context ∧
        last.context = other.context := by
  constructor
  intro value final image last ran also
  have left : Ensures (onTree action) start fun value final =>
      action.run start.tree = .ok value final.tree ∧ final.context = start.context := by
    rw [ensures_on_tree]
    constructor
    intro value tree ran
    exact ⟨ran, rfl⟩
  have right : Ensures (onTree action) other fun value final =>
      action.run other.tree = .ok value final.tree ∧ final.context = other.context := by
    rw [ensures_on_tree]
    constructor
    intro value tree ran
    exact ⟨ran, rfl⟩
  rcases left.met _ _ ran with ⟨here, stays⟩
  rcases right.met _ _ also with ⟨there, remains⟩
  rw [same, here] at there
  injection there with values trees
  exact ⟨values.symm, trees.symm, stays, remains⟩

/-- What is read of a file does not depend on its blanks and comments. -/
theorem together_root {sequence : TokenSequence} (indents : sequence.Indents) (fileName : String) :
    Together root root (.initial sequence fileName) (.initial sequence.withoutInline fileName)
      fun node final twin last => twin = node ∧ last.tree = final.tree ∧
        last.context.diagnostics = final.context.diagnostics := by
  have level : ParsingContext.Level sequence (.ofSequence sequence fileName)
      (.ofSequence sequence.withoutInline fileName) :=
    .intro sequence.size_pos [] fileName
  have runs := @together_items (.inline sequence indents) (.initial sequence fileName)
    (.initial sequence.withoutInline fileName)
  unfold root
  rw [together_bind, together_remaining, together_bind]
  apply (runs _ _ ⟨[], [], []⟩ ⟨[], [], []⟩ rfl
    (.inl (ParsingContext.ready_behind_lines level))).weaken
  rintro ⟨modules, imports, functions⟩ final _ last concludes
  cases concludes with
  | lost lost => exact lost.lenient.elim
  | parted lenient => exact lenient.elim
  | both same trees ready ended =>
      have items : ∀ nodes : List NodeId, nodes.map (NodeId.raised 0) = nodes := List.map_id
      obtain rfl := same
      simp only [Items.onto, List.nil_append, items, Coupling.inline]
      rw [together_bind, together_current, ready.1.current]
      apply (together_on_tree trees).weaken
      rintro node made twin mirror ⟨same, trees, stays, remains⟩
      exact ⟨same, trees, by rw [stays, remains, ready.1.diagnostics]⟩

theorem sound_without_inline {sequence : TokenSequence} {limit : Position}
    (laid : sequence.LaidOut limit) (fileName : String) :
    ParserState.Sound limit (.initial sequence.withoutInline fileName) where
  inside := Cursor.inside_of_sequence _
  laid := laid.without_inline
  reported := by
    intro found member
    cases member
  constructed := SourceTree.constructed_empty _

theorem runs_without_inline {sequence : TokenSequence} {limit : Position} (fileName : String)
    (sound : ParserState.Sound limit (.initial sequence fileName)) (indents : sequence.Indents) :
    ∃ node whole reduced, root.run (.initial sequence fileName) = .ok node whole ∧
      root.run (.initial sequence.withoutInline fileName) = .ok node reduced ∧
      reduced.tree = whole.tree ∧ reduced.context.diagnostics = whole.context.diagnostics := by
  rcases yields_iff.mp (yields_root sound) with ⟨node, whole, ran, -⟩
  rcases yields_iff.mp (yields_root (sound_without_inline sound.laid fileName)) with
    ⟨twin, reduced, also, -⟩
  rcases (together_root indents fileName).met node whole twin reduced ran also with
    ⟨rfl, trees, diagnostics⟩
  exact ⟨_, whole, reduced, ran, also, trees, diagnostics⟩

/-- Blanks and comments of a text are invisible: the parser makes the same nodes with the
same spans, the same root and the same reports from the tokens without them. -/
theorem root_without_inline (text fileName : String) :
    ∃ node whole reduced,
      root.run (.initial (Tokenized.ofText text fileName).sequence fileName) = .ok node whole ∧
      root.run (.initial (Tokenized.ofText text fileName).sequence.withoutInline fileName) =
        .ok node reduced ∧
      reduced.tree = whole.tree ∧ reduced.context.diagnostics = whole.context.diagnostics :=
  runs_without_inline fileName (ParserState.sound_initial text fileName)
    (Tokenized.indents_of_text text fileName)

end Parser

end ModuleLang
