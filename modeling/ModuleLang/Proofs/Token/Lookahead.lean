import Mathlib.Logic.Function.Iterate
import ModuleLang.Proofs.Token.Layout

/-!
Looking ahead and looking back from a cursor. Peeking counts the tokens that are no
blanks and comments; it shows the token that moving the cursor on would make current,
at the end of the file too. What was moved past ends where the last of its tokens ends
that is no trivia. Both hold of every cursor that moves, snapshots and returns to
snapshots lead to, as all of these stay within the sequence.
-/

namespace ModuleLang

namespace Cursor

variable {cursor : Cursor} {skipped : TokenKind → Bool}

theorem skip_while_at_end (ended : cursor.atEnd = true) : cursor.skipWhile skipped = cursor := by
  unfold skipWhile
  cases cursor.remaining with
  | zero => rfl
  | succ budget => rw [skipWithin, ended, Bool.true_or, if_pos rfl]

theorem skip_while_solid (solid : skipped cursor.current.kind = false) :
    cursor.skipWhile skipped = cursor := by
  unfold skipWhile
  cases cursor.remaining with
  | zero => rfl
  | succ budget => rw [skipWithin, solid, Bool.not_false, Bool.or_true, if_pos rfl]

theorem remaining_advance (inside : cursor.Inside) (going : cursor.atEnd = false) :
    cursor.remaining = cursor.advance.remaining + 1 := by
  have positive := remaining_pos inside
  unfold remaining at *
  rw [sequence_advance, position_advance going]
  omega

/-- A token that is skipped may as well be moved past first. -/
theorem skip_while_passes (inside : cursor.Inside) (going : cursor.atEnd = false)
    (skips : skipped cursor.current.kind = true) :
    cursor.skipWhile skipped = cursor.advance.skipWhile skipped := by
  unfold skipWhile
  rw [remaining_advance inside going, skipWithin, going, skips, Bool.not_true, Bool.or_false,
    if_neg Bool.false_ne_true]

theorem advance_inline_at_end (ended : cursor.atEnd = true) : cursor.advanceInline = cursor := by
  have stays : cursor.advance = cursor := by rw [advance, ended, if_pos rfl]
  rw [advanceInline, stays]
  exact skip_while_at_end ended

/-- What peeking shows is what skipping blanks and then moving on would make current. -/
theorem peek_within_eq {budget : Nat} (inside : cursor.Inside) (enough : cursor.remaining ≤ budget)
    (offset : Nat) :
    peekWithin budget cursor offset = (advanceInline^[offset] cursor.skipInline).current := by
  induction budget generalizing cursor offset with
  | zero =>
      have positive := remaining_pos inside
      omega
  | succ budget ih =>
      unfold peekWithin
      cases going : cursor.atEnd with
      | true =>
          have stays : cursor.skipInline = cursor := skip_while_at_end going
          rw [if_pos rfl, stays, Function.iterate_fixed (advance_inline_at_end going)]
      | false =>
          have further : cursor.advance.remaining ≤ budget := by
            rw [remaining_advance inside going] at enough
            omega
          have later := ih (inside_advance inside) further
          rw [if_neg Bool.false_ne_true]
          cases trivia : cursor.current.kind.isInlineTrivia with
          | true =>
              have passes : cursor.skipInline = cursor.advance.skipInline :=
                skip_while_passes inside going trivia
              rw [if_pos rfl, later, passes]
          | false =>
              have stays : cursor.skipInline = cursor := skip_while_solid trivia
              rw [if_neg Bool.false_ne_true, stays]
              cases offset with
              | zero => rfl
              | succ offset => exact later offset

theorem peek_eq (inside : cursor.Inside) (offset : Nat) :
    cursor.peek offset = (advanceInline^[offset] cursor.skipInline).current :=
  peek_within_eq inside (Nat.le_refl _) offset

/-- The tokens in front of the current one. -/
def passed (cursor : Cursor) : List Token := cursor.sequence.tokens.toList.take cursor.position

theorem previous_end_of_take {sequence : TokenSequence} {index : Nat}
    (bound : index ≤ sequence.size) :
    previousEnd? sequence index =
      ((sequence.tokens.toList.take index).filter fun token => !token.isTrivia).getLast?.map
        fun token => token.span.stop := by
  induction index with
  | zero => rfl
  | succ index ih =>
      have inside : index < sequence.tokens.size := bound
      have next : sequence.tokens.toList.take (index + 1) =
          sequence.tokens.toList.take index ++ [sequence.get index] := by
        rw [TokenSequence.get_of_bound inside, List.take_succ_eq_append_getElem
          (by rw [Array.length_toList]; exact inside), Array.getElem_toList]
      rw [previousEnd?, next, List.filter_append, List.getLast?_append]
      cases trivia : (sequence.get index).isTrivia with
      | true => simpa [trivia] using ih (Nat.le_of_succ_le bound)
      | false => simp [trivia]

/-- What was moved past ends with the last of its tokens that is no trivia. -/
theorem previous_end_eq (inside : cursor.Inside) :
    cursor.previousEnd =
      ((cursor.passed.filter fun token => !token.isTrivia).getLast?.map
        fun token => token.span.stop).getD cursor.current.span.start := by
  rw [previousEnd, previous_end_of_take (Nat.le_of_lt inside)]
  rfl

end Cursor

/-- What can be done with a cursor and the cursors that it was forked from. -/
inductive CursorStep
  | advance
  | advanceInline
  | skipInline
  | skipLines
  | restore (position : Nat)
  | fork
  /-- The fork is given up and the cursor that it came from goes to its place. -/
  | join
  /-- The fork is given up. -/
  | drop
deriving DecidableEq

/-- A cursor and the cursors that it was forked from, the last one first. -/
structure Forks where
  current : Cursor
  parents : List Cursor

namespace Forks

def ofSequence (sequence : TokenSequence) : Forks := ⟨.ofSequence sequence, []⟩

/-- One step of the last fork. The first cursor is never given up. -/
def after (forks : Forks) : CursorStep → Forks
  | .advance => { forks with current := forks.current.advance }
  | .advanceInline => { forks with current := forks.current.advanceInline }
  | .skipInline => { forks with current := forks.current.skipInline }
  | .skipLines => { forks with current := forks.current.skipLines }
  | .restore position => { forks with current := forks.current.restore position }
  | .fork => ⟨forks.current, forks.current :: forks.parents⟩
  | .join =>
      match forks.parents with
      | [] => forks
      | parent :: parents => ⟨parent.restore forks.current.position, parents⟩
  | .drop =>
      match forks.parents with
      | [] => forks
      | parent :: parents => ⟨parent, parents⟩

/-- The cursors that steps from the start of a sequence lead to. -/
def ofSteps (sequence : TokenSequence) (steps : List CursorStep) : Forks :=
  steps.foldl after (ofSequence sequence)

/-- All cursors stand at tokens of a sequence. -/
def Stand (sequence : TokenSequence) (forks : Forks) : Prop :=
  ∀ cursor ∈ forks.current :: forks.parents, cursor.sequence = sequence ∧ cursor.Inside

variable {sequence : TokenSequence} {forks : Forks}

/-- A step that moves the last fork only. -/
theorem Stand.moved (stand : forks.Stand sequence) {cursor : Cursor}
    (same : cursor.sequence = forks.current.sequence) (inside : cursor.Inside) :
    Stand sequence { forks with current := cursor } := by
  obtain ⟨here, parents⟩ := List.forall_mem_cons.mp stand
  exact List.forall_mem_cons.mpr ⟨⟨same.trans here.1, inside⟩, parents⟩

theorem Stand.followed (stand : forks.Stand sequence) {cursor : Cursor}
    (moved : forks.current.Follows cursor) : Stand sequence { forks with current := cursor } :=
  stand.moved moved.sequence moved.inside

/-- No step leads out of the sequence. -/
theorem Stand.after (stand : forks.Stand sequence) (step : CursorStep) :
    (forks.after step).Stand sequence := by
  obtain ⟨⟨_, inside⟩, parents⟩ := List.forall_mem_cons.mp stand
  cases step with
  | advance => exact stand.followed (Cursor.follows_advance inside)
  | advanceInline => exact stand.followed (Cursor.follows_advance_inline inside)
  | skipInline => exact stand.followed (Cursor.follows_skip_while _ inside)
  | skipLines => exact stand.followed (Cursor.follows_skip_while _ inside)
  | restore position => exact stand.moved rfl (Cursor.position_restore_lt _ _)
  | fork => exact List.forall_mem_cons.mpr ⟨stand _ List.mem_cons_self, stand⟩
  | join =>
      obtain ⟨current, _ | ⟨parent, others⟩⟩ := forks
      · exact stand
      · obtain ⟨here, rest⟩ := List.forall_mem_cons.mp parents
        exact List.forall_mem_cons.mpr ⟨⟨here.1, Cursor.position_restore_lt _ _⟩, rest⟩
  | drop =>
      obtain ⟨current, _ | ⟨parent, others⟩⟩ := forks
      · exact stand
      · exact parents

/-- Nor does a run of them. -/
theorem Stand.steps (stand : forks.Stand sequence) (steps : List CursorStep) :
    (steps.foldl Forks.after forks).Stand sequence := by
  induction steps generalizing forks with
  | nil => exact stand
  | cons step steps ih => exact ih (stand.after step)

theorem stand_of_sequence (sequence : TokenSequence) : (ofSequence sequence).Stand sequence :=
  List.forall_mem_singleton.mpr ⟨rfl, Cursor.inside_of_sequence sequence⟩

/-- Wherever steps lead to, the cursor stands at a token, peeking shows the token that moving
would make current, and the end of what was passed is that of the last token that counts. -/
theorem of_steps_looks_around (sequence : TokenSequence) (steps : List CursorStep) (offset : Nat) :
    let cursor := (ofSteps sequence steps).current
    cursor.sequence = sequence ∧ cursor.position < sequence.size ∧
      cursor.peek offset = (Cursor.advanceInline^[offset] cursor.skipInline).current ∧
      cursor.previousEnd =
        ((cursor.passed.filter fun token => !token.isTrivia).getLast?.map
          fun token => token.span.stop).getD cursor.current.span.start := by
  intro cursor
  have stand : (ofSteps sequence steps).Stand sequence := (stand_of_sequence sequence).steps steps
  obtain ⟨same, inside⟩ := stand cursor List.mem_cons_self
  have bound : cursor.position < sequence.size := same ▸ inside
  exact ⟨same, bound, Cursor.peek_eq inside offset, Cursor.previous_end_eq inside⟩

/-- Behind `a` and a blank, from a fork that went to the end of the file and was given up. -/
example :
    let tokens : TokenSequence :=
      .ofTokens #[⟨.word "a", .point .start⟩, ⟨.blank, .point .start⟩, ⟨.word "b", .point .start⟩]
    let cursor := (ofSteps tokens [.advance, .fork, .restore 9, .drop]).current
    (cursor.position, (cursor.peek 0).kind, (cursor.peek 1).kind) =
      (1, .word "b", .endOfFile) := by
  decide

end Forks

end ModuleLang
