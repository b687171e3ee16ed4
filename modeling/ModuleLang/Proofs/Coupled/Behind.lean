import ModuleLang.Proofs.Coupled.Declaration
import ModuleLang.Proofs.Token.Joining

/-!
A run over a file beside one over the same tokens behind a line end, where another file
stands in front. Once an item has begun both see the same behind them, too, and they never
part: both files end with the same token.
-/

namespace ModuleLang

namespace TokenSequence.Joins

variable {rows : Nat} {first second whole : TokenSequence} (joins : Joins rows first second whole)

include joins

theorem kind_back {index : Nat} (bound : index < second.size) :
    (whole.get (first.size + index)).kind = (second.get index).kind := by
  rw [joins.back index bound]
  rfl

theorem stops_back {skipped : TokenKind → Bool} {from' place : Nat}
    (stops : second.StopsAt skipped from' place) :
    whole.StopsAt skipped (first.size + from') (first.size + place) where
  behind := Nat.add_le_add_left stops.behind _
  inside := by
    rw [joins.size]
    exact Nat.add_lt_add_left stops.inside _
  passed index lower upper := by
    obtain ⟨other, rfl⟩ : ∃ other, index = first.size + other :=
      ⟨index - first.size, by omega⟩
    have below : other < place := by omega
    rw [joins.kind_back (Nat.lt_trans below stops.inside)]
    exact stops.passed other (by omega) below
  stopped := by
    rw [joins.kind_back stops.inside]
    exact stops.stopped

theorem previous_end_back {index : Nat} (bound : index ≤ second.size)
    (solid : ∃ earlier < index, (second.get earlier).isTrivia = false) :
    Cursor.previousEnd? whole (first.size + index) =
        (Cursor.previousEnd? second index).map (Position.lowered rows) ∧
      (Cursor.previousEnd? second index).isSome = true := by
  induction index with
  | zero =>
      rcases solid with ⟨earlier, before, -⟩
      exact absurd before (Nat.not_lt_zero _)
  | succ index ih =>
      have inside : index < second.size := bound
      have same := joins.back index inside
      have trivia : (whole.get (first.size + index)).isTrivia = (second.get index).isTrivia := by
        rw [same]
        rfl
      rw [← Nat.add_assoc]
      unfold Cursor.previousEnd?
      dsimp only
      rw [trivia]
      cases own : (second.get index).isTrivia with
      | false =>
          rw [same]
          exact ⟨rfl, rfl⟩
      | true =>
          refine ih (Nat.le_of_lt inside) ?_
          rcases solid with ⟨earlier, before, stands⟩
          refine ⟨earlier, ?_, stands⟩
          rcases Nat.eq_or_lt_of_le (Nat.le_of_lt_succ before) with rfl | less
          · rw [own] at stands
            cases stands
          · exact less

theorem row_start_back {index : Nat} (bound : index ≤ second.size) :
    Cursor.rowStart whole (first.size + index) = first.size + Cursor.rowStart second index := by
  induction index with
  | zero =>
      have positive := first.size_pos
      obtain ⟨last, same⟩ : ∃ last, first.size = last + 1 := ⟨first.size - 1, by omega⟩
      have seam := joins.seam
      rw [same, Nat.add_sub_cancel] at seam
      have here : Cursor.rowStart whole (last + 1) = last + 1 := by
        rw [Cursor.rowStart, seam]
        rfl
      rw [same]
      exact here
  | succ index ih =>
      have inside : index < second.size := bound
      rw [← Nat.add_assoc, Cursor.rowStart, Cursor.rowStart, joins.kind_back inside,
        ih (Nat.le_of_lt inside)]
      split <;> rfl

theorem indentation_from_back {budget index : Nat} (bound : index < second.size) :
    Cursor.indentationFrom whole budget (first.size + index) =
      Cursor.indentationFrom second budget index := by
  induction budget generalizing index with
  | zero => rfl
  | succ budget ih =>
      unfold Cursor.indentationFrom
      rw [joins.kind_back bound]
      split
      · rename_i step
        have next : index + 1 < second.size := by
          apply @Cursor.current_kind_of_not_end ⟨second, index⟩ bound
          rw [Cursor.atEnd, Cursor.current, eq_of_beq step]
          rfl
        rw [Nat.add_assoc, ih next]
      · rfl

theorem indentation_back {index : Nat} (bound : index < second.size) :
    Cursor.indentation ⟨whole, first.size + index⟩ = Cursor.indentation ⟨second, index⟩ := by
  have start := Cursor.row_start_le second index
  have less : first.size + second.size - (first.size + Cursor.rowStart second index) =
      second.size - Cursor.rowStart second index := by omega
  unfold Cursor.indentation
  dsimp only
  rw [joins.row_start_back (Nat.le_of_lt bound), joins.size, less]
  exact joins.indentation_from_back (Nat.lt_of_le_of_lt start bound)

end TokenSequence.Joins

namespace SourceTree

/-- A tree whose nodes stand behind those of another one, with larger numbers and some rows
further down. -/
structure Grafted (rows : Nat) (base here there : SourceTree) : Prop where
  size : there.arena.size = here.arena.size + base.arena.size
  node : ∀ id : NodeId, there.arena.node? (id.raised base.arena.size) =
    (here.arena.node? id).map (Node.raised base.arena.size)
  span : ∀ id : NodeId, there.spans.span? (id.raised base.arena.size) =
    (here.spans.span? id).map (Span.lowered rows)
  before : ∀ id : NodeId, id.index < base.arena.size →
    there.arena.node? id = base.arena.node? id ∧ there.spans.span? id = base.spans.span? id

variable {rows : Nat} {base here there : SourceTree}

theorem Grafted.kind (grafted : Grafted rows base here there) (id : NodeId) :
    there.arena.kind? (id.raised base.arena.size) =
      (here.arena.kind? id).map (NodeKind.map (NodeId.raised base.arena.size)) := by
  unfold Arena.kind?
  rw [grafted.node, Option.map_map, Option.map_map]
  rfl

theorem Grafted.grown (grafted : Grafted rows base here there) (kind : NodeKind NodeId)
    (span : Span) : Grafted rows base (here.grown kind span)
      (there.grown (kind.map (NodeId.raised base.arena.size)) (span.lowered rows)) := by
  have top : ∀ id : NodeId, (id.raised base.arena.size).index = there.arena.size ↔
      id.index = here.arena.size := by
    intro id
    rw [grafted.size]
    exact Nat.add_right_cancel_iff
  have typed : Arena.initialType (kind.map (NodeId.raised base.arena.size)) =
      Arena.initialType kind := by
    cases kind <;> rfl
  refine ⟨?_, ?_, ?_, ?_⟩
  · rw [size_grown, size_grown, grafted.size, Nat.add_right_comm]
  · intro id
    have here : (here.grown kind span).arena.node? id = _ := Arena.node?_alloc here.arena kind id
    have new : (there.grown (kind.map (NodeId.raised base.arena.size))
        (span.lowered rows)).arena.node? (id.raised base.arena.size) = _ :=
      Arena.node?_alloc there.arena _ (id.raised base.arena.size)
    rw [here, new, typed]
    simp only [top]
    split
    · rfl
    · exact grafted.node id
  · intro id
    rw [span_grown, span_grown]
    simp only [top]
    split
    · rfl
    · exact grafted.span id
  · intro id bound
    have apart : id.index ≠ there.arena.size := by
      rw [grafted.size]
      omega
    refine ⟨?_, ?_⟩
    · exact ((Arena.node?_alloc _ _ _).trans (if_neg apart)).trans (grafted.before id bound).1
    · rw [span_grown, if_neg apart]
      exact (grafted.before id bound).2

end SourceTree

namespace ParsingContext

/-- Contexts in front of the same token, in the second file by itself and in the whole. -/
inductive Shifted (rows : Nat) (first second whole : TokenSequence) :
    ParsingContext → ParsingContext → Prop
  | intro {position : Nat} (bound : position < second.size) (diagnostics : List Diagnostic)
      (fileName : String) : Shifted rows first second whole
        ⟨⟨second, position⟩, diagnostics, fileName⟩
        ⟨⟨whole, first.size + position⟩, diagnostics.map (Diagnostic.lowered rows), fileName⟩

/-- A token that was moved past stands in front of a cursor. -/
def Started (context : ParsingContext) : Prop :=
  ∃ earlier < context.cursor.position,
    (context.cursor.sequence.get earlier).isTrivia = false

variable {rows : Nat} {first second whole : TokenSequence} {here there ahead beyond : ParsingContext}

namespace Shifted

variable (shifted : Shifted rows first second whole here there)

include shifted

theorem inside : here.cursor.Inside := by
  cases shifted with
  | intro bound diagnostics fileName => exact bound

theorem reported (kind : DiagnosticKind) (span : Span) :
    Shifted rows first second whole (here.report kind span)
      (there.report kind (span.lowered rows)) := by
  cases shifted with
  | intro bound diagnostics fileName =>
      have more := @Shifted.intro rows first second whole _ bound
        (diagnostics ++ [⟨kind, span, fileName⟩]) fileName
      rw [List.map_append] at more
      exact more

theorem forked : Shifted rows first second whole here.fork there.fork := by
  cases shifted with
  | intro bound diagnostics fileName => exact .intro bound [] fileName

variable (joins : first.Joins rows second whole)

include joins

theorem current : there.current = here.current.lowered rows := by
  cases shifted with
  | intro bound diagnostics fileName => exact joins.back _ bound

theorem kind : there.current.kind = here.current.kind := by
  rw [shifted.current joins]
  rfl

theorem starts : there.current.span.start = here.current.span.start.lowered rows := by
  rw [shifted.current joins]
  rfl

theorem previous_end (started : here.Started) :
    there.cursor.previousEnd = here.cursor.previousEnd.lowered rows := by
  cases shifted with
  | intro bound diagnostics fileName =>
      rcases joins.previous_end_back (Nat.le_of_lt bound) started with ⟨same, found⟩
      rcases Option.isSome_iff_exists.mp found with ⟨place, found⟩
      unfold Cursor.previousEnd
      rw [same, found]
      rfl

theorem indentation : there.cursor.indentation = here.cursor.indentation := by
  cases shifted with
  | intro bound diagnostics fileName => exact joins.indentation_back bound

theorem reported_here (kind : DiagnosticKind) :
    Shifted rows first second whole (here.reportHere kind) (there.reportHere kind) := by
  have same := shifted.current joins
  unfold reportHere
  rw [same]
  exact shifted.reported kind here.current.span

theorem merged (inner : Shifted rows first second whole ahead beyond) :
    Shifted rows first second whole (here.merge ahead) (there.merge beyond) := by
  cases shifted with
  | intro _ diagnostics fileName =>
      cases inner with
      | @intro position bound reports otherName =>
          have same : min position (second.size - 1) = position :=
            Nat.min_eq_left (Nat.le_sub_one_of_lt bound)
          have also : min (first.size + position) (whole.size - 1) = first.size + position := by
            rw [joins.size]
            omega
          have merged := @Shifted.intro rows first second whole position bound
            (diagnostics ++ reports) fileName
          rw [List.map_append] at merged
          simp only [merge, Cursor.restore, same, also]
          exact merged

theorem skipped (skipped : TokenKind → Bool) :
    Shifted rows first second whole { here with cursor := here.cursor.skipWhile skipped }
      { there with cursor := there.cursor.skipWhile skipped } := by
  cases shifted with
  | @intro position bound diagnostics fileName =>
      have inside : Cursor.Inside ⟨second, position⟩ := bound
      have beyond : Cursor.Inside ⟨whole, first.size + position⟩ := by
        change first.size + position < whole.size
        rw [joins.size]
        exact Nat.add_lt_add_left bound _
      have stops := Cursor.stops_skip_while skipped inside
      rw [Cursor.skip_while_of_stops inside stops,
        Cursor.skip_while_of_stops beyond (joins.stops_back stops)]
      exact .intro stops.inside diagnostics fileName

theorem advanced (going : here.current.kind ≠ .endOfFile) :
    Shifted rows first second whole here.advance there.advance := by
  have kinds := shifted.kind joins
  cases shifted with
  | @intro position bound diagnostics fileName =>
      have here : Cursor.atEnd ⟨second, position⟩ = false := beq_false_of_ne going
      have there : Cursor.atEnd ⟨whole, first.size + position⟩ = false := by
        rw [← kinds] at going
        exact beq_false_of_ne going
      have inside : Cursor.Inside ⟨second, position⟩ := bound
      have next := Cursor.current_kind_of_not_end inside here
      have moved : Shifted rows first second whole ⟨⟨second, position + 1⟩, diagnostics, fileName⟩
          ⟨⟨whole, first.size + (position + 1)⟩, diagnostics.map (Diagnostic.lowered rows),
            fileName⟩ :=
        .intro next diagnostics fileName
      unfold advance Cursor.advanceInline Cursor.advance
      rw [here, there]
      exact moved.skipped joins TokenKind.isInlineTrivia

/-- Behind line ends both are in front of the end of the file or of a token that is moved
past. -/
theorem ready_behind_lines : Shifted rows first second whole here.skipLines there.skipLines ∧
    (here.skipLines.current.kind = .endOfFile ∨ here.skipLines.current.kind.isSolid = true) := by
  refine ⟨shifted.skipped joins TokenKind.isTrivia, ?_⟩
  rw [or_iff_not_imp_left]
  exact solid_behind_lines shifted.inside

omit joins in
/-- Whether a cursor moved is seen at both places. -/
theorem moved (inner : Shifted rows first second whole ahead beyond) :
    (ahead.cursor.position = here.cursor.position ∧
        beyond.cursor.position = there.cursor.position ∧ ahead.current.kind = here.current.kind) ∨
      ahead.cursor.position ≠ here.cursor.position ∧
        beyond.cursor.position ≠ there.cursor.position := by
  cases shifted with
  | @intro position bound diagnostics fileName =>
      cases inner with
      | @intro other inside reports otherName =>
          dsimp only
          by_cases same : other = position
          · subst same
            exact .inl ⟨rfl, rfl, rfl⟩
          · exact .inr ⟨same, by omega⟩

end Shifted

namespace Started

theorem later (started : here.Started) {cursor : Cursor}
    (follows : here.cursor.Follows cursor) : Started { here with cursor } := by
  rcases started with ⟨earlier, before, solid⟩
  refine ⟨earlier, Nat.lt_of_lt_of_le before follows.position, ?_⟩
  change (cursor.sequence.get earlier).isTrivia = false
  rw [follows.sequence]
  exact solid

/-- Behind a token that is moved past. -/
theorem of_moved {cursor : Cursor} (solid : here.current.kind.isSolid = true)
    (follows : here.cursor.Follows cursor) (moved : here.cursor.position < cursor.position) :
    Started { here with cursor } := by
  refine ⟨here.cursor.position, moved, ?_⟩
  change (cursor.sequence.get here.cursor.position).isTrivia = false
  rw [follows.sequence]
  rw [TokenKind.isSolid, Bool.and_eq_true, Bool.not_eq_true'] at solid
  exact solid.1

end Started

/-- Contexts in front of the same token, behind one that was moved past. -/
structure Inward (rows : Nat) (first second whole : TokenSequence)
    (here there : ParsingContext) : Prop where
  shifted : Shifted rows first second whole here there
  started : here.Started

namespace Inward

variable (joins : first.Joins rows second whole) (inward : Inward rows first second whole here there)

include joins inward

theorem merged (inner : Inward rows first second whole ahead beyond) :
    Inward rows first second whole (here.merge ahead) (there.merge beyond) := by
  refine ⟨inward.shifted.merged joins inner.shifted, ?_⟩
  have started := inner.started
  cases inward.shifted with
  | intro _ diagnostics fileName =>
      cases inner.shifted with
      | @intro position bound reports otherName =>
          have same : min position (second.size - 1) = position :=
            Nat.min_eq_left (Nat.le_sub_one_of_lt bound)
          simp only [merge, Cursor.restore, same]
          exact started

theorem skipped (skipped : TokenKind → Bool) :
    Inward rows first second whole { here with cursor := here.cursor.skipWhile skipped }
      { there with cursor := there.cursor.skipWhile skipped } :=
  ⟨inward.shifted.skipped joins skipped,
    inward.started.later (Cursor.follows_skip_while skipped inward.shifted.inside)⟩

theorem advanced (going : here.current.kind ≠ .endOfFile) :
    Inward rows first second whole here.advance there.advance :=
  ⟨inward.shifted.advanced joins going,
    inward.started.later (Cursor.follows_advance_inline inward.shifted.inside)⟩

end Inward

end ParsingContext

namespace Coupling

open ParsingContext

/-- A run over a file beside one over a whole that it is the second part of. -/
def behind {rows : Nat} {first second whole : TokenSequence} (base : SourceTree)
    (joins : first.Joins rows second whole) : Coupling where
  ids := base.arena.size
  rows := rows
  lenient := False
  trees := SourceTree.Grafted rows base
  beside _ := Inward rows first second whole
  ready here there := Shifted rows first second whole here there ∧
    (here.current.kind = .endOfFile ∨ here.current.kind.isSolid = true)
  apart _ _ := False
  size := SourceTree.Grafted.size
  kind := SourceTree.Grafted.kind
  grown := SourceTree.Grafted.grown
  inside beside := beside.shifted.inside
  alike beside := .inl (beside.shifted.kind joins).symm
  starts beside := beside.shifted.starts joins
  ends beside := beside.shifted.previous_end joins beside.started
  indented beside := beside.shifted.indentation joins
  shallower _ beside := beside
  reportedHere beside kind := ⟨beside.shifted.reported_here joins kind, beside.started⟩
  reported beside kind span := ⟨beside.shifted.reported kind span, beside.started⟩
  forked beside := ⟨beside.shifted.forked, beside.started⟩
  merged beside inner := beside.merged joins inner
  advanced beside solid := beside.advanced joins (TokenKind.going_of_solid solid)
  grouped beside := beside.skipped joins _
  waited beside kind _ := (beside.advanced joins (TokenKind.going_of_operator kind)).skipped joins _
  skipped beside := .inl ⟨beside.skipped joins _,
    ((beside.shifted.skipped joins TokenKind.isTrivia).kind joins).symm⟩
  finished beside := beside.skipped joins _
  recovered beside := .inl (beside.skipped joins _)
  readied beside := .inl (beside.shifted.ready_behind_lines joins)
  apartEnded := ParsingContext.ended_of_never
  readyKind ready := ready.1.kind joins
  readySolid ready going := ready.2.resolve_left going
  readyStarts ready := ready.1.starts joins
  readyAdvanced ready solid := by
    have going := TokenKind.going_of_solid solid
    have inside := ready.1.inside
    exact ⟨ready.1.advanced joins going, .of_moved solid (Cursor.follows_advance_inline inside)
      (Cursor.advance_inline_strict inside (beq_false_of_ne going))⟩
  readyPassed ready solid begins := by
    have going := TokenKind.going_of_solid solid
    have inside := ready.1.inside
    refine .inl ⟨ready.1.skipped joins _, .of_moved solid (Cursor.follows_skip_while _ inside) ?_⟩
    apply Cursor.skip_while_strict _ inside (beq_false_of_ne going)
    rw [Bool.not_eq_true']
    exact begins
  readyMoved ready beside := ready.1.moved beside.shifted

end Coupling

end ModuleLang
