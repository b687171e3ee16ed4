import ModuleLang.Parsing.Expression
import ModuleLang.Proofs.Ensures
import ModuleLang.Proofs.Parsing.Progress

/-!
Productions get on. Whatever the tokens and the tree are, a production comes to an end,
moves its cursor only forward and within the sequence, and keeps what was reported. Most
productions have moved past a token when they return something, and many have always
reported when they return nothing; `Progressed` says both. A loop goes round, and a nested
production begins, behind a token that was moved past, so that the tokens that remain bound
them.
-/

namespace ModuleLang

namespace ParserState

/-- A state that an action may lead to: its cursor has moved on in the same sequence and
its reports have become more. -/
structure Advances (before after : ParserState) : Prop where
  cursor : before.context.cursor.Follows after.context.cursor
  diagnostics : before.context.diagnostics <+: after.context.diagnostics

namespace Advances

variable {first second third before after : ParserState}

theorem refl {state : ParserState} (inside : state.context.cursor.Inside) : state.Advances state :=
  ⟨.refl inside, List.prefix_refl _⟩

theorem trans (left : first.Advances second) (right : second.Advances third) :
    first.Advances third :=
  ⟨left.cursor.trans right.cursor, left.diagnostics.trans right.diagnostics⟩

theorem inside (moved : before.Advances after) : after.context.cursor.Inside :=
  moved.cursor.inside

theorem position (moved : before.Advances after) : before.position ≤ after.position :=
  moved.cursor.position

theorem length (moved : before.Advances after) :
    before.context.diagnostics.length ≤ after.context.diagnostics.length :=
  moved.diagnostics.length_le

theorem remaining (moved : before.Advances after) : after.remaining ≤ before.remaining := by
  have sequence := moved.cursor.sequence
  have position := moved.cursor.position
  unfold ParserState.remaining Cursor.remaining
  rw [sequence]
  omega

end Advances

/-- A state that an action leads to if it moves past a token. -/
structure Past (before after : ParserState) : Prop extends before.Advances after where
  ahead : before.position < after.position

namespace Past

variable {first second third before after : ParserState}

theorem later (past : first.Past second) (moved : second.Advances third) : first.Past third :=
  ⟨past.toAdvances.trans moved, Nat.lt_of_lt_of_le past.ahead moved.position⟩

theorem since (past : second.Past third) (moved : first.Advances second) : first.Past third :=
  ⟨moved.trans past.toAdvances, Nat.lt_of_le_of_lt moved.position past.ahead⟩

/-- Behind a token that was moved past there is less room. -/
theorem fewer {budget : Nat} (past : before.Past after) (enough : before.remaining ≤ budget + 1) :
    after.remaining ≤ budget := by
  have sequence := past.cursor.sequence
  have ahead := past.ahead
  unfold ParserState.position at ahead
  unfold ParserState.remaining Cursor.remaining at *
  rw [sequence]
  omega

end Past

/-- The token at the end is never moved past, so a budget never runs out first. -/
theorem not_exhausted {state : ParserState} (inside : state.context.cursor.Inside) :
    ¬ state.remaining ≤ 0 :=
  Nat.not_le_of_gt (Cursor.remaining_pos inside)

theorem advances_moved {start : ParserState} {cursor : Cursor}
    (moved : start.context.cursor.Follows cursor) :
    start.Advances { start with context := { start.context with cursor } } :=
  ⟨moved, List.prefix_refl _⟩

theorem advances_reported {start : ParserState} (inside : start.context.cursor.Inside)
    (kind : DiagnosticKind) (span : Span) :
    start.Advances { start with context := start.context.report kind span } :=
  ⟨.refl inside, List.prefix_append _ _⟩

/-- Only the tree has changed. -/
theorem advances_same {start final : ParserState} (inside : start.context.cursor.Inside)
    (same : final.context = start.context) : start.Advances final := by
  obtain ⟨tree, context⟩ := final
  cases same
  exact ⟨.refl inside, List.prefix_refl _⟩

end ParserState

namespace Parser

open ParserState

variable {value image : Type}

/-- What is known of a production that began at `start`. If it is `strict` and returns
something, it has moved past a token; if it is `loud` and returns nothing, it has reported. -/
structure Progressed (strict loud : Prop) (start : ParserState) (result : Option value)
    (final : ParserState) : Prop where
  advances : start.Advances final
  moved : ∀ found, result = some found → strict → start.position < final.position
  told : result = none → loud →
    start.context.diagnostics.length < final.context.diagnostics.length

section Progress

variable {strict loud : Prop} {start middle final : ParserState}

theorem progressed_none (advances : start.Advances final)
    (told : loud → start.context.diagnostics.length < final.context.diagnostics.length) :
    Progressed strict loud start (none : Option value) final :=
  ⟨advances, by simp, fun _ => told⟩

theorem progressed_some (found : value) (advances : start.Advances final)
    (moved : strict → start.position < final.position) :
    Progressed strict loud start (some found) final :=
  ⟨advances, fun _ _ => moved, by simp⟩

theorem progressed_past (found : value) (past : start.Past final) :
    Progressed strict loud start (some found) final :=
  progressed_some found past.toAdvances fun _ => past.ahead

theorem Progressed.past {found : value} (progressed : Progressed True loud start (some found) final) :
    start.Past final :=
  ⟨progressed.advances, progressed.moved found rfl trivial⟩

/-- A production that ends because a part of it returned nothing. -/
theorem Progressed.failed {strict' : Prop}
    (part : Progressed strict' loud middle (none : Option image) final)
    (advances : start.Advances middle) :
    Progressed strict loud start (none : Option value) final :=
  progressed_none (advances.trans part.advances) fun isLoud =>
    Nat.lt_of_le_of_lt advances.length (part.told rfl isLoud)

/-- A production that went over to another one. -/
theorem Progressed.since {result : Option value} (part : Progressed strict loud middle result final)
    (advances : start.Advances middle) : Progressed strict loud start result final where
  advances := advances.trans part.advances
  moved found same isStrict :=
    Nat.lt_of_le_of_lt advances.position (part.moved found same isStrict)
  told failed isLoud := Nat.lt_of_le_of_lt advances.length (part.told failed isLoud)

/-- A production of which less is asked. -/
theorem Progressed.relax {strict' loud' : Prop} {result : Option value}
    (progressed : Progressed strict loud start result final) (looser : strict' → strict)
    (quieter : loud' → loud) : Progressed strict' loud' start result final :=
  ⟨progressed.advances, fun found same wanted => progressed.moved found same (looser wanted),
    fun failed wanted => progressed.told failed (quieter wanted)⟩

/-- A production that had moved past a token before. -/
theorem Progressed.behind {strict' : Prop} {result : Option value}
    (part : Progressed strict' loud middle result final) (past : start.Past middle) :
    Progressed strict loud start result final where
  advances := past.toAdvances.trans part.advances
  moved _ _ _ := (past.later part.advances).ahead
  told failed isLoud := Nat.lt_of_le_of_lt past.length (part.told failed isLoud)

end Progress

section Rules

variable {start : ParserState}

theorem ends_context (start : ParserState) (holds : ParsingContext → ParserState → Prop) :
    Ends context start holds ↔ holds start.context start :=
  Iff.rfl

theorem ends_current (start : ParserState) (holds : Token → ParserState → Prop) :
    Ends current start holds ↔ holds start.context.current start :=
  Iff.rfl

theorem ends_remaining (start : ParserState) (holds : Nat → ParserState → Prop) :
    Ends remaining start holds ↔ holds start.remaining start :=
  Iff.rfl

theorem ends_previous_end (start : ParserState) (holds : Position → ParserState → Prop) :
    Ends previousEnd start holds ↔ holds start.passed start :=
  Iff.rfl

theorem ends_kind (node : NodeId) (start : ParserState)
    (holds : Option (NodeKind NodeId) → ParserState → Prop) :
    Ends (kind? node) start holds ↔ holds (start.tree.arena.kind? node) start :=
  Iff.rfl

theorem ends_move (step : ParsingContext → ParsingContext) (start : ParserState)
    (holds : PUnit → ParserState → Prop) :
    Ends (move step) start holds ↔ holds ⟨⟩ { start with context := step start.context } :=
  Iff.rfl

theorem ends_set_context (context : ParsingContext) (start : ParserState)
    (holds : PUnit → ParserState → Prop) :
    Ends (setContext context) start holds ↔ holds ⟨⟩ { start with context } :=
  Iff.rfl

theorem ends_on_tree (action : SourceTree.Action value) (start : ParserState)
    (holds : value → ParserState → Prop) :
    Ends (onTree action) start holds ↔
      Ends action start.tree fun result tree => holds result { start with tree } := by
  unfold Ends EStateM.run onTree EStateM.run
  cases action start.tree <;> rfl

theorem ends_advance {holds : PUnit → ParserState → Prop}
    (inside : start.context.cursor.Inside)
    (met : ∀ final, start.Advances final →
      (start.context.current.kind ≠ .endOfFile → start.Past final) → holds ⟨⟩ final) :
    Ends advance start holds := by
  unfold advance
  rw [ends_move]
  have moved := advances_moved (Cursor.follows_advance_inline inside)
  refine met _ moved fun going => ⟨moved, ?_⟩
  exact Cursor.advance_inline_strict inside
    (by simpa [Cursor.atEnd, ParsingContext.current] using going)

/-- Moving past a token that is not the end of the file. -/
theorem ends_begin {holds : PUnit → ParserState → Prop}
    (inside : start.context.cursor.Inside) (going : start.context.current.kind ≠ .endOfFile)
    (met : ∀ final, start.Past final → holds ⟨⟩ final) : Ends advance start holds :=
  ends_advance inside fun final _ past => met final (past going)

theorem ends_skip_lines {holds : PUnit → ParserState → Prop}
    (inside : start.context.cursor.Inside)
    (met : ∀ final, start.Advances final → holds ⟨⟩ final) :
    Ends skipLines start holds := by
  unfold skipLines
  rw [ends_move]
  exact met _ (advances_moved (Cursor.follows_skip_while _ inside))

theorem ends_skip_until {stops : TokenKind → Bool} {holds : PUnit → ParserState → Prop}
    (inside : start.context.cursor.Inside)
    (met : ∀ final, start.Advances final → holds ⟨⟩ final) :
    Ends (move (ParsingContext.skipUntil stops)) start holds := by
  rw [ends_move]
  exact met _ (advances_moved (Cursor.follows_skip_while _ inside))

theorem ends_report {kind : DiagnosticKind} {span : Span}
    {holds : PUnit → ParserState → Prop} (inside : start.context.cursor.Inside)
    (met : ∀ final, start.Advances final →
      start.context.diagnostics.length < final.context.diagnostics.length → holds ⟨⟩ final) :
    Ends (report kind span) start holds := by
  unfold report
  rw [ends_move]
  exact met _ (advances_reported inside kind span) (by simp [ParsingContext.report])

theorem ends_report_here {kind : DiagnosticKind} {holds : PUnit → ParserState → Prop}
    (inside : start.context.cursor.Inside)
    (met : ∀ final, start.Advances final →
      start.context.diagnostics.length < final.context.diagnostics.length → holds ⟨⟩ final) :
    Ends (reportHere kind) start holds := by
  unfold reportHere
  rw [ends_move]
  exact met _ (advances_reported inside kind _)
    (by simp [ParsingContext.reportHere, ParsingContext.report])

theorem ends_accept {mark : Punctuation} {holds : Bool → ParserState → Prop}
    (inside : start.context.cursor.Inside)
    (present : ∀ final, start.Past final → holds true final)
    (absent : holds false start) : Ends (accept mark) start holds := by
  unfold accept
  rw [ends_bind, ends_context]
  split
  · rename_i found
    have kind : start.context.current.kind = .punctuation mark := by
      simpa [ParsingContext.atPunctuation] using found
    rw [ends_bind]
    exact ends_begin inside (by simp [kind]) present
  · exact absent

theorem ends_expect {mark : Punctuation} {missing : DiagnosticKind}
    {holds : PUnit → ParserState → Prop} (inside : start.context.cursor.Inside)
    (met : ∀ final, start.Advances final → holds ⟨⟩ final) :
    Ends (expect mark missing) start holds := by
  unfold expect
  rw [ends_bind]
  refine ends_accept inside (fun final past => met final past.toAdvances) ?_
  exact ends_report_here inside fun final moved _ => met final moved

theorem ends_word {holds : Option String → ParserState → Prop}
    (inside : start.context.cursor.Inside)
    (present : ∀ name final, start.Past final → holds (some name) final)
    (absent : holds none start) : Ends word? start holds := by
  unfold word?
  rw [ends_bind, ends_current]
  split
  · rename_i name found
    rw [ends_bind]
    have going : start.context.current.kind ≠ .endOfFile := by
      intro ended
      rw [ended] at found
      cases found
    exact ends_begin inside going (present name)
  · exact absent

theorem ends_finish (kind : NodeKind NodeId) (lower : Position)
    {holds : NodeId → ParserState → Prop} (inside : start.context.cursor.Inside)
    (met : ∀ node final, start.Advances final → final.context = start.context →
      holds node final) :
    Ends (finish kind lower) start holds := by
  unfold finish
  rw [ends_bind, ends_previous_end, ends_on_tree]
  exact SourceTree.ends_create _ _ fun node tree => met node _ (advances_same inside rfl) rfl

/-- A fork whose production returned is merged, any other one is dropped. -/
theorem ends_attempt {strict loud : Prop} {production : Parser (Option value)}
    (inside : start.context.cursor.Inside)
    (ran : Ends production { start with context := start.context.fork }
      (Progressed strict loud { start with context := start.context.fork })) :
    Ends (attempt production) start fun result final =>
      Progressed strict False start result final ∧
        (result = none → final.context = start.context) := by
  unfold attempt
  rw [ends_bind, ends_context, ends_bind, ends_set_context, ends_bind]
  refine ran.weaken fun result final progressed => ?_
  cases result with
  | some found =>
      rw [ends_bind, ends_move]
      have cursor : (start.context.merge final.context).cursor = final.context.cursor :=
        Cursor.restore_of_follows progressed.advances.cursor
      have advances : start.Advances { final with context := start.context.merge final.context } := by
        refine ⟨?_, List.prefix_append _ _⟩
        change start.context.cursor.Follows (start.context.merge final.context).cursor
        rw [cursor]
        exact progressed.advances.cursor
      refine ⟨progressed_some found advances fun isStrict => ?_, by simp⟩
      change start.context.cursor.position < (start.context.merge final.context).cursor.position
      rw [cursor]
      exact progressed.moved found rfl isStrict
  | none =>
      rw [ends_bind, ends_set_context]
      exact ⟨progressed_none (advances_same inside rfl) False.elim, fun _ => rfl⟩

variable {strict loud : Prop} {origin state : ParserState}

/-- A production that ends because something is missing, which it reports. -/
theorem ends_missing {kind : DiagnosticKind} (advances : origin.Advances state) :
    Ends (do
      reportHere kind
      return (none : Option value)) state (Progressed strict loud origin) := by
  rw [ends_bind]
  refine ends_report_here advances.inside fun final told more => ?_
  exact progressed_none (advances.trans told) fun _ => Nat.lt_of_le_of_lt advances.length more

/-- A production that ends with the making of its node. -/
theorem ends_made (kind : NodeKind NodeId) (lower : Position) (past : origin.Past state) :
    Ends (do return some (← finish kind lower)) state (Progressed strict loud origin) := by
  rw [ends_bind]
  refine ends_finish kind lower past.inside fun node final made same => ?_
  exact progressed_past node (past.later made)

/-- A production that goes on with what a part of it returned, and that ends where the part
returned nothing: the part has reported then, if anything has to be. -/
theorem ends_part {strict' loud' : Prop} {part : Parser (Option image)}
    {next : Option image → Parser (Option value)} (advances : origin.Advances state)
    (quieter : loud → loud')
    (ran : Ends part state (Progressed strict' loud' state)) (absent : next none = pure none)
    (present : ∀ found final, Progressed strict' loud' state (some found) final →
      Ends (next (some found)) final (Progressed strict loud origin)) :
    Ends (part >>= next) state (Progressed strict loud origin) := by
  rw [ends_bind]
  refine ran.weaken fun result final progressed => ?_
  cases result with
  | none =>
      rw [absent]
      exact (progressed.relax id quieter).failed advances
  | some found => exact present found final progressed

end Rules

/-!
Written types. A type is at least its name, and one that cannot be read is reported.
-/

theorem ends_commas {budget : Nat} {start : ParserState} (inside : start.context.cursor.Inside)
    (enough : start.remaining ≤ budget) :
    Ends (commas budget) start fun _ final => start.Advances final := by
  induction budget generalizing start with
  | zero => exact absurd enough (not_exhausted inside)
  | succ budget ih =>
      unfold commas
      rw [ends_bind]
      refine ends_accept inside ?_ (.refl inside)
      intro after past
      have rest := ih past.inside (past.fewer enough)
      exact (ends_bind _ _ _ _).mpr (rest.weaken fun _ final later => past.toAdvances.trans later)

theorem ends_rank_suffixes {budget : Nat} {ranks : List Nat} {start : ParserState}
    (inside : start.context.cursor.Inside) (enough : start.remaining ≤ budget) :
    Ends (rankSuffixes budget ranks) start (Progressed False True start) := by
  induction budget generalizing start ranks with
  | zero => exact absurd enough (not_exhausted inside)
  | succ budget ih =>
      unfold rankSuffixes
      rw [ends_bind, ends_context]
      by_cases suffix : atRankSuffix start.context = true
      · have kind : start.context.current.kind = .punctuation .openBracket := by
          simp [atRankSuffix, ParsingContext.atPunctuation] at suffix
          exact suffix.1
        simp only [suffix, Bool.not_true, Bool.false_eq_true, if_false]
        rw [ends_bind, ends_current, ends_bind]
        refine ends_begin inside (by simp [kind]) fun opened past => ?_
        rw [ends_bind, ends_remaining, ends_bind]
        refine (ends_commas past.inside (Nat.le_refl _)).weaken fun count counted moved => ?_
        have past := past.later moved
        rw [ends_bind]
        refine ends_accept moved.inside ?_ (ends_missing past.toAdvances)
        intro closed further
        have past := past.later further.toAdvances
        rw [Bool.not_true, if_neg Bool.false_ne_true]
        split
        · rw [ends_bind, ends_previous_end, ends_bind]
          refine SourceTree.ends_of_report fun span => ?_
          rw [ends_bind]
          refine ends_report past.inside fun final told more => ?_
          exact progressed_none (past.later told).toAdvances fun _ =>
            Nat.lt_of_le_of_lt past.length more
        · refine (ih past.inside (past.fewer enough)).weaken fun _ _ rest => ?_
          exact rest.since past.toAdvances
      · simp only [suffix, Bool.not_false, if_true]
        exact progressed_some ranks (.refl inside) False.elim

theorem ends_type {start : ParserState} (inside : start.context.cursor.Inside) :
    Ends type start (Progressed True True start) := by
  unfold type
  rw [ends_bind, ends_current, ends_bind]
  refine ends_word inside ?_ (ends_missing (.refl inside))
  intro name named past
  rw [ends_bind, ends_remaining]
  refine ends_part past.toAdvances id (ends_rank_suffixes past.inside (Nat.le_refl _)) rfl
    fun ranks final read => ?_
  exact ends_made _ _ (past.later read.advances)

theorem ends_names_builtin (node : NodeId) (start : ParserState)
    {holds : Bool → ParserState → Prop} (met : ∀ found, holds found start) :
    Ends (namesBuiltin node) start holds := by
  unfold namesBuiltin
  rw [ends_bind, ends_kind]
  split
  · exact met _
  · exact met _

/-!
Expressions. The production for nested expressions is a parameter, as it is of the
productions themselves; it need only end where few enough tokens remain.
-/

/-- Nested expressions end where at most `bound` tokens remain. -/
def ExpressionsEnd (bound : Nat) (expression : (minimum : Nat) → Parser (Option NodeId)) : Prop :=
  ∀ minimum state, state.context.cursor.Inside → state.remaining ≤ bound →
    Ends (expression minimum) state (Progressed True True state)

section Expressions

variable {bound : Nat} {expression : (minimum : Nat) → Parser (Option NodeId)}
  (nested : ExpressionsEnd bound expression)

include nested

theorem ends_arguments_from {budget : Nat} {found : List NodeId} {start : ParserState}
    (inside : start.context.cursor.Inside) (enough : start.remaining ≤ budget)
    (within : start.remaining ≤ bound) :
    Ends (argumentsFrom expression budget found) start (Progressed True True start) := by
  induction budget generalizing start found with
  | zero => exact absurd enough (not_exhausted inside)
  | succ budget ih =>
      unfold argumentsFrom
      refine ends_part (.refl inside) id (nested 0 start inside within) rfl
        fun node read argument => ?_
      rw [ends_bind]
      refine ends_skip_lines argument.advances.inside fun skipped moved => ?_
      have past := argument.past.later moved
      rw [ends_bind]
      refine ends_accept moved.inside ?_ ?_
      · intro behind comma
        rw [if_pos rfl, ends_bind]
        refine ends_skip_lines comma.inside fun next last => ?_
        have past := past.later (comma.later last).toAdvances
        refine (ih last.inside (past.fewer enough)
          (Nat.le_trans past.remaining within)).weaken fun _ _ rest => ?_
        exact rest.since past.toAdvances
      · rw [if_neg Bool.false_ne_true, ends_bind]
        exact ends_expect moved.inside fun final closed =>
          progressed_past _ (past.later closed)

theorem ends_arguments {start : ParserState} (inside : start.context.cursor.Inside)
    (within : start.remaining ≤ bound + 1) :
    Ends (arguments expression) start (Progressed True True start) := by
  unfold arguments
  rw [ends_bind]
  refine ends_accept inside ?_ (ends_missing (.refl inside))
  intro opened past
  rw [Bool.not_true, if_neg Bool.false_ne_true, ends_bind]
  refine ends_skip_lines past.inside fun skipped moved => ?_
  have past := past.later moved
  rw [ends_bind]
  refine ends_accept moved.inside ?_ ?_
  · intro final closed
    exact progressed_past _ (past.later closed.toAdvances)
  · rw [if_neg Bool.false_ne_true, ends_bind, ends_remaining]
    refine (ends_arguments_from nested moved.inside (Nat.le_refl _) (past.fewer within)).weaken
      fun _ _ rest => ?_
    exact rest.since past.toAdvances

theorem ends_construction {start : ParserState} (inside : start.context.cursor.Inside)
    (keyword : start.context.current.kind = .keyword .newWord)
    (within : start.remaining ≤ bound + 1) :
    Ends (construction expression) start (Progressed True True start) := by
  unfold construction
  rw [ends_bind, ends_current, ends_bind]
  refine ends_begin inside (by simp [keyword]) fun next past => ?_
  rw [ends_bind, ends_current, ends_bind]
  refine ends_word past.inside ?_ (ends_missing past.toAdvances)
  intro name named word
  rw [ends_bind]
  refine ends_finish _ _ word.inside fun type typed made _ => ?_
  have past := past.later (word.later made).toAdvances
  rw [ends_bind]
  refine ends_accept made.inside ?_ ?_
  · intro opened bracket
    rw [if_pos rfl]
    have past := past.later bracket.toAdvances
    refine ends_part past.toAdvances id (nested 0 opened past.inside (past.fewer within)) rfl
      fun node read length => ?_
    rw [ends_bind]
    refine ends_expect length.advances.inside fun closed last => ?_
    exact ends_made _ _ (past.later (length.advances.trans last))
  · rw [if_neg Bool.false_ne_true]
    refine ends_part past.toAdvances id
      (ends_arguments nested past.inside (Nat.le_trans past.remaining within)) rfl
      fun nodes final given => ?_
    exact ends_made _ _ (past.later given.advances)

theorem ends_cast (start : ParserState) (inside : start.context.cursor.Inside)
    (opening : start.context.current.kind = .punctuation .openParen)
    (within : start.remaining ≤ bound + 1) :
    Ends (cast expression) start (Progressed True False start) := by
  unfold cast
  rw [ends_bind, ends_current, ends_bind]
  refine ends_begin inside (by simp [opening]) fun next past => ?_
  refine ends_part past.toAdvances False.elim (ends_type past.inside) rfl
    fun target typed type => ?_
  have past := past.later type.advances
  rw [ends_bind]
  refine ends_accept past.inside ?_ (progressed_none past.toAdvances False.elim)
  intro closed further
  have past := past.later further.toAdvances
  rw [Bool.not_true, if_neg Bool.false_ne_true, ends_bind]
  refine ends_names_builtin target closed fun builtin => ?_
  rw [ends_bind, ends_current]
  split
  · exact progressed_none past.toAdvances False.elim
  · refine ends_part past.toAdvances False.elim
      (nested Operator.leadingPower closed past.inside (past.fewer within)) rfl
      fun node read inner => ?_
    have past := past.later inner.advances
    exact ends_made _ _ past

theorem ends_parenthesized {start : ParserState} (inside : start.context.cursor.Inside)
    (opening : start.context.current.kind = .punctuation .openParen)
    (within : start.remaining ≤ bound + 1) :
    Ends (parenthesized expression) start (Progressed True True start) := by
  unfold parenthesized
  rw [ends_bind]
  refine ends_begin inside (by simp [opening]) fun next past => ?_
  rw [ends_bind]
  refine ends_skip_lines past.inside fun skipped moved => ?_
  have past := past.later moved
  refine ends_part past.toAdvances id (nested 0 skipped past.inside (past.fewer within)) rfl
    fun node read inner => ?_
  rw [ends_bind]
  refine ends_skip_lines inner.advances.inside fun behind last => ?_
  rw [ends_bind]
  exact ends_expect last.inside fun final closed =>
    progressed_past _ (past.later (inner.advances.trans (last.trans closed)))

theorem ends_operand {start : ParserState} (inside : start.context.cursor.Inside)
    (within : start.remaining ≤ bound + 1) :
    Ends (operand expression) start (Progressed True True start) := by
  unfold operand
  rw [ends_bind, ends_current]
  split
  · rename_i value kind
    rw [ends_bind]
    exact ends_begin inside (by simp [kind]) fun next past => ends_made _ _ past
  · rename_i name kind
    rw [ends_bind]
    refine ends_begin inside (by simp [kind]) fun next past => ?_
    rw [ends_bind, ends_context]
    split
    · refine ends_part past.toAdvances id
        (ends_arguments nested past.inside (Nat.le_trans past.remaining within)) rfl
        fun nodes final given => ?_
      exact ends_made _ _ (past.later given.advances)
    · exact ends_made _ _ past
  · rename_i kind
    exact ends_construction nested inside kind within
  · rename_i spelt kind
    split
    · rw [ends_bind]
      refine ends_begin inside (by simp [kind]) fun next past => ?_
      refine ends_part past.toAdvances id
        (nested Operator.leadingPower next past.inside (past.fewer within)) rfl
        fun node read inner => ?_
      exact ends_made _ _ (past.later inner.advances)
    · exact ends_missing (.refl inside)
  · rename_i kind
    rw [ends_bind]
    have tried := ends_attempt inside
      (ends_cast nested { start with context := start.context.fork } inside kind within)
    refine tried.weaken ?_
    rintro result after ⟨cast, dropped⟩
    cases result with
    | some node => exact progressed_past _ cast.past
    | none =>
        have same := dropped rfl
        refine (ends_parenthesized nested cast.advances.inside (by rw [same]; exact kind)
          (Nat.le_trans cast.advances.remaining within)).weaken fun _ _ rest => ?_
        exact rest.since cast.advances
  · exact ends_missing (.refl inside)

theorem ends_trailing {budget : Nat} {lower : Position} {target : NodeId} {start : ParserState}
    (inside : start.context.cursor.Inside) (enough : start.remaining ≤ budget)
    (within : start.remaining ≤ bound + 1) :
    Ends (trailing expression budget lower target) start (Progressed False True start) := by
  induction budget generalizing start target with
  | zero => exact absurd enough (not_exhausted inside)
  | succ budget ih =>
      unfold trailing
      rw [ends_bind, ends_current]
      -- The loop goes on behind a new node, with less room than before.
      have again : ∀ {behind : ParserState} (kind : NodeKind NodeId), start.Past behind →
          Ends (do trailing expression budget lower (← finish kind lower)) behind
            (Progressed False True start) := by
        intro behind kind past
        rw [ends_bind]
        refine ends_finish kind lower past.inside fun node next made _ => ?_
        have past := past.later made
        refine (ih made.inside (past.fewer enough) (Nat.le_trans past.remaining within)).weaken
          fun _ _ rest => ?_
        exact rest.since past.toAdvances
      split
      · rename_i kind
        rw [ends_bind]
        refine ends_begin inside (by simp [kind]) fun next past => ?_
        rw [ends_bind]
        refine ends_word past.inside ?_ (ends_missing past.toAdvances)
        intro name named further
        exact again _ (past.later further.toAdvances)
      · rename_i kind
        rw [ends_bind]
        refine ends_begin inside (by simp [kind]) fun next past => ?_
        refine ends_part past.toAdvances id (nested 0 next past.inside (past.fewer within)) rfl
          fun node read index => ?_
        rw [ends_bind]
        refine ends_expect index.advances.inside fun last closed => ?_
        exact again _ (past.later (index.advances.trans closed))
      · rename_i spelt kind
        split
        · rw [ends_bind]
          exact ends_begin inside (by simp [kind]) fun next past => again _ past
        · exact progressed_some _ (.refl inside) False.elim
      · exact progressed_some _ (.refl inside) False.elim

theorem ends_binaries {minimum budget : Nat} {lower : Position} {left : NodeId}
    {start : ParserState} (inside : start.context.cursor.Inside)
    (enough : start.remaining ≤ budget) (within : start.remaining ≤ bound + 1) :
    Ends (binaries expression minimum budget lower left) start (Progressed False True start) := by
  induction budget generalizing start left with
  | zero => exact absurd enough (not_exhausted inside)
  | succ budget ih =>
      unfold binaries
      rw [ends_bind, ends_current]
      split
      · exact progressed_some _ (.refl inside) False.elim
      · rename_i operator power tight
        have going : start.context.current.kind ≠ .endOfFile := by
          intro last
          rw [last] at tight
          cases tight
        rw [ends_bind]
        refine ends_begin inside going fun next past => ?_
        rw [ends_bind]
        refine ends_skip_lines past.inside fun skipped moved => ?_
        have past := past.later moved
        refine ends_part past.toAdvances id
          (nested power skipped past.inside (past.fewer within)) rfl fun node read right => ?_
        rw [ends_bind]
        refine ends_finish _ _ right.advances.inside fun node behind made _ => ?_
        have past := past.later (right.advances.trans made)
        refine (ih made.inside (past.fewer enough) (Nat.le_trans past.remaining within)).weaken
          fun _ _ rest => ?_
        exact rest.since past.toAdvances

theorem ends_operation {start : ParserState} (minimum : Nat)
    (inside : start.context.cursor.Inside) (within : start.remaining ≤ bound + 1) :
    Ends (operation expression minimum) start (Progressed True True start) := by
  unfold operation
  rw [ends_bind, ends_current]
  refine ends_part (.refl inside) id (ends_operand nested inside within) rfl
    fun node read first => ?_
  rw [ends_bind, ends_remaining]
  have inside' := first.advances.inside
  have within' := Nat.le_trans first.advances.remaining within
  refine ends_part first.advances id (ends_trailing nested inside' (Nat.le_refl _) within') rfl
    fun node behind left => ?_
  have past := first.past.later left.advances
  rw [ends_bind, ends_remaining]
  refine (ends_binaries nested past.inside (Nat.le_refl _)
    (Nat.le_trans past.remaining within)).weaken fun _ _ rest => ?_
  exact rest.behind past

end Expressions

theorem ends_expression_within (budget : Nat) :
    ExpressionsEnd budget (expressionWithin budget) := by
  induction budget with
  | zero =>
      intro minimum state inside enough
      exact absurd enough (not_exhausted inside)
  | succ budget ih =>
      intro minimum state inside enough
      exact ends_operation ih minimum inside enough

theorem ends_expression (bound : Nat) : ExpressionsEnd bound expression := by
  intro minimum start inside _
  unfold expression
  rw [ends_bind, ends_remaining]
  exact ends_expression_within start.remaining minimum start inside (Nat.le_refl _)

end Parser

end ModuleLang
