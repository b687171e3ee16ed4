import ModuleLang.Proofs.Parsing.Advancing
import ModuleLang.Proofs.Parsing.Declaration

/-!
Statements, bodies, items and whole files get on like expressions do. A body may return
something without having moved, as an empty one that is missing does; a block has moved
past its brace, a statement past some token, and an item past its keyword. The rounds of
the loop over items move past a token also where an item fails, so a file comes to its end.
-/

namespace ModuleLang

namespace Parser

open ParserState

theorem ends_end_statement {start : ParserState} {holds : PUnit → ParserState → Prop}
    (inside : start.context.cursor.Inside)
    (met : ∀ final, start.Advances final → holds ⟨⟩ final) :
    Ends endStatement start holds := by
  -- A semicolon is moved past if it is there.
  have closes : ∀ {state : ParserState}, start.Advances state →
      Ends (do if (← current).kind == .endOfStatement then advance) state holds := by
    intro state moved
    rw [ends_bind, ends_current]
    split
    · exact ends_advance moved.inside fun final last _ => met final (moved.trans last)
    · exact met state moved
  unfold endStatement
  rw [ends_bind, ends_context]
  split
  · rw [ends_bind, ends_current, ends_bind]
    refine ends_skip_until inside fun skipped moved => ?_
    rw [ends_bind, ends_previous_end, ends_bind]
    exact ends_report moved.inside fun reported further _ => closes (moved.trans further)
  · exact closes (.refl inside)

theorem ends_definition {start : ParserState} (inside : start.context.cursor.Inside) :
    Ends definition start (Progressed True False start) := by
  unfold definition
  rw [ends_bind, ends_current]
  refine ends_part (.refl inside) False.elim (ends_type inside) rfl fun node typed type => ?_
  rw [ends_bind]
  refine ends_word type.advances.inside ?_ (progressed_none type.advances False.elim)
  intro name named word
  have past := type.past.later word.toAdvances
  rw [ends_bind]
  refine ends_finish _ _ word.inside fun definition defined made _ => ?_
  have past := past.later made
  rw [ends_bind, ends_context]
  split
  · exact progressed_past _ past
  · rw [ends_bind, ends_context]
    split
    · exact progressed_none past.toAdvances False.elim
    · rw [ends_bind]
      refine ends_advance past.inside fun next moved _ => ?_
      have past := past.later moved
      refine ends_part past.toAdvances False.elim
        (ends_expression _ 0 next past.inside (Nat.le_refl _)) rfl fun node read value => ?_
      have past := past.later value.advances
      exact ends_made _ _ past

theorem ends_assignment {start : ParserState} (inside : start.context.cursor.Inside) :
    Ends assignment start (Progressed True False start) := by
  unfold assignment
  rw [ends_bind, ends_current]
  refine ends_part (.refl inside) False.elim
    (ends_expression _ Operator.leadingPower start inside (Nat.le_refl _)) rfl
    fun node read target => ?_
  have past := target.past
  rw [ends_bind, ends_kind]
  split
  · exact progressed_none past.toAdvances False.elim
  · rw [ends_bind, ends_current]
    split
    · exact progressed_none past.toAdvances False.elim
    · rw [ends_bind]
      refine ends_advance past.inside fun next moved _ => ?_
      have past := past.later moved
      refine ends_part past.toAdvances False.elim
        (ends_expression _ 0 next past.inside (Nat.le_refl _)) rfl fun node read value => ?_
      have past := past.later value.advances
      exact ends_made _ _ past

theorem ends_expression_statement {start : ParserState} (inside : start.context.cursor.Inside) :
    Ends expressionStatement start (Progressed True False start) := by
  unfold expressionStatement
  refine ends_part (.refl inside) False.elim (ends_expression _ 0 start inside (Nat.le_refl _)) rfl
    fun node read value => ?_
  rw [ends_bind, ends_kind]
  split
  · exact progressed_past _ value.past
  · exact progressed_none value.advances False.elim

/-- A production whose statement ends with it. -/
theorem ends_ended {strict loud : Prop} {node : NodeId} {origin state : ParserState}
    (past : origin.Past state) :
    Ends (do
      endStatement
      return some node) state (Progressed strict loud origin) := by
  rw [ends_bind]
  exact ends_end_statement past.inside fun final moved => progressed_past _ (past.later moved)

theorem ends_simple_statement {start : ParserState} (inside : start.context.cursor.Inside) :
    Ends simpleStatement start (Progressed True False start) := by
  -- An alternative that is tried behind others may have moved past a token itself.
  have tries : ∀ {production : Parser (Option NodeId)} {state : ParserState},
      (∀ {state : ParserState}, state.context.cursor.Inside →
        Ends production state (Progressed True False state)) →
      start.Advances state →
      Ends (attempt production) state (Progressed True False start) := by
    intro production state ends moved
    exact (ends_attempt moved.inside (ends moved.inside)).weaken
      fun _ _ tried => tried.1.since moved
  have closes : ∀ {result : Option NodeId} {state : ParserState},
      Progressed True False start result state →
      Ends (do
        if result.isSome then endStatement
        return result) state (Progressed True False start) := by
    intro result state progressed
    cases result with
    | none => exact progressed
    | some node => exact ends_ended progressed.past
  unfold simpleStatement
  rw [ends_bind]
  refine (tries ends_definition (.refl inside)).weaken fun result first defined => ?_
  cases result with
  | some node => exact closes defined
  | none =>
      rw [ends_bind]
      refine (tries ends_assignment defined.advances).weaken fun result second assigned => ?_
      cases result with
      | some node => exact closes assigned
      | none =>
          rw [ends_bind]
          exact (tries ends_expression_statement assigned.advances).weaken
            fun _ _ alone => closes alone

theorem ends_predicate {start : ParserState} (inside : start.context.cursor.Inside) :
    Ends predicate start (Progressed True True start) := by
  unfold predicate
  rw [ends_bind]
  refine ends_accept inside ?_ (ends_expression _ 0 start inside (Nat.le_refl _))
  intro opened past
  rw [Bool.not_true, if_neg Bool.false_ne_true, ends_bind]
  refine ends_skip_lines past.inside fun skipped moved => ?_
  have past := past.later moved
  refine ends_part past.toAdvances id (ends_expression _ 0 skipped past.inside (Nat.le_refl _)) rfl
    fun node read value => ?_
  rw [ends_bind]
  refine ends_skip_lines value.advances.inside fun behind last => ?_
  rw [ends_bind]
  refine ends_expect last.inside fun final closed => ?_
  exact progressed_past _ (past.later (value.advances.trans (last.trans closed)))

theorem ends_return_statement {start : ParserState} (inside : start.context.cursor.Inside)
    (keyword : start.context.current.kind = .keyword .returnWord) :
    Ends returnStatement start (Progressed True False start) := by
  unfold returnStatement
  rw [ends_bind, ends_current, ends_bind]
  refine ends_begin inside (by simp [keyword]) fun next past => ?_
  rw [ends_bind, ends_context]
  split
  · rw [ends_bind]
    exact ends_finish _ _ past.inside fun node final made _ => ends_ended (past.later made)
  · refine ends_part past.toAdvances False.elim
      (ends_expression _ 0 next past.inside (Nat.le_refl _)) rfl fun node read value => ?_
    have past := past.later value.advances
    rw [ends_bind]
    exact ends_finish _ _ past.inside fun node final made _ => ends_ended (past.later made)

theorem ends_jump {start : ParserState} (kind : NodeKind NodeId)
    (inside : start.context.cursor.Inside)
    (going : start.context.current.kind ≠ .endOfFile) :
    Ends (jump kind) start (Progressed True False start) := by
  unfold jump
  rw [ends_bind, ends_current, ends_bind]
  refine ends_begin inside going fun next past => ?_
  rw [ends_bind]
  exact ends_finish _ _ past.inside fun node final made _ => ends_ended (past.later made)

/-- Nested statements end where at most `bound` tokens remain. -/
def StatementsEnd (bound : Nat) (statement : Parser (Option NodeId)) : Prop :=
  ∀ state, state.context.cursor.Inside → state.remaining ≤ bound →
    Ends statement state (Progressed True False state)

section Productions

variable {bound : Nat} {statement : Parser (Option NodeId)}
  (nested : StatementsEnd bound statement)

include nested

theorem ends_block_from {budget : Nat} {failing : Bool} {found : List NodeId}
    {start : ParserState} (inside : start.context.cursor.Inside)
    (enough : start.remaining ≤ budget) (within : start.remaining ≤ bound) :
    Ends (blockFrom statement budget failing found) start fun _ final =>
      start.Advances final := by
  induction budget generalizing start failing found with
  | zero => exact absurd enough (not_exhausted inside)
  | succ budget ih =>
      unfold blockFrom
      rw [ends_bind]
      refine ends_skip_lines inside fun state skipped => ?_
      have enough := Nat.le_trans skipped.remaining enough
      have within := Nat.le_trans skipped.remaining within
      rw [ends_bind]
      refine ends_accept skipped.inside ?_ ?_
      · intro closed past
        exact skipped.trans past.toAdvances
      · rw [if_neg Bool.false_ne_true, ends_bind, ends_current]
        -- Every round moves past a token.
        have again : ∀ {next : ParserState} {failing : Bool} {found : List NodeId},
            state.Past next →
            Ends (blockFrom statement budget failing found) next fun _ final =>
              start.Advances final := by
          intro next failing found past
          exact (ih past.inside (past.fewer enough)
            (Nat.le_trans past.remaining within)).weaken fun _ _ rest =>
              (skipped.trans past.toAdvances).trans rest
        split
        · rw [ends_bind]
          exact ends_report_here skipped.inside fun final told _ => skipped.trans told
        · rename_i kind
          rw [ends_bind]
          exact ends_begin skipped.inside (by simp [kind]) fun next past => again past
        · rename_i going _
          rw [ends_bind]
          refine (ends_attempt skipped.inside (nested
            { state with context := state.context.fork } skipped.inside within)).weaken ?_
          rintro result tried ⟨progressed, dropped⟩
          cases result with
          | some node => exact again progressed.past
          | none =>
              have same := dropped rfl
              -- The token that the statement begins with is passed over.
              have passes : ∀ {last : ParserState}, state.Advances last →
                  last.context.current = state.context.current →
                  Ends (do
                    advance
                    blockFrom statement budget true found) last fun _ final =>
                      start.Advances final := by
                intro last moved current
                rw [ends_bind]
                refine ends_begin moved.inside (by rw [current]; exact going)
                  fun next past => again (past.since moved)
              have current : tried.context.current = state.context.current := by rw [same]
              cases failing with
              | true => exact passes progressed.advances current
              | false =>
                  exact passes (progressed.advances.trans
                    (advances_reported progressed.advances.inside .invalidStatement _)) current

/-- At the end of the file there is no brace to move past, and its absence is reported. -/
theorem ends_block {start : ParserState} (inside : start.context.cursor.Inside)
    (room : ∀ next, start.Advances next →
      (start.context.current.kind ≠ .endOfFile → start.Past next) → next.remaining ≤ bound) :
    Ends (block statement) start
      (Progressed (start.context.current.kind ≠ .endOfFile) True start) := by
  unfold block
  rw [ends_bind, ends_current, ends_bind]
  refine ends_advance inside fun next moved past => ?_
  rw [ends_bind, ends_remaining, ends_bind]
  refine (ends_block_from nested moved.inside (Nat.le_refl _)
    (room next moved past)).weaken fun statements last rest => ?_
  rw [ends_bind]
  refine ends_finish _ _ rest.inside fun node final made _ => ?_
  exact progressed_some node (moved.trans (rest.trans made)) fun going =>
    ((past going).later (rest.trans made)).ahead

/-- A block that is entered at its brace. -/
theorem ends_braced {start : ParserState} (inside : start.context.cursor.Inside)
    (opening : start.context.current.kind = .punctuation .openBrace)
    (within : start.remaining ≤ bound + 1) :
    Ends (block statement) start (Progressed True True start) := by
  have going : start.context.current.kind ≠ .endOfFile := by simp [opening]
  refine (ends_block nested inside fun _ _ past => (past going).fewer within).weaken
    fun _ _ progressed => ?_
  exact progressed.relax (fun _ => going) id

theorem ends_single_body {start : ParserState} (inside : start.context.cursor.Inside)
    (within : start.remaining ≤ bound) :
    Ends (singleBody statement) start (Progressed True True start) := by
  unfold singleBody
  rw [ends_bind, ends_current, ends_bind]
  refine (ends_attempt inside (nested
    { start with context := start.context.fork } inside within)).weaken ?_
  rintro result tried ⟨progressed, -⟩
  cases result with
  | some node => exact ends_made _ _ progressed.past
  | none => exact ends_missing progressed.advances

theorem ends_body {start : ParserState} (inside : start.context.cursor.Inside)
    (within : start.remaining ≤ bound) :
    Ends (body statement) start (Progressed False True start) := by
  have merged := merge_fork_skip_lines inside
  have skipped : start.Advances { start with context := start.context.skipLines } :=
    advances_moved (Cursor.follows_skip_while _ inside)
  have within' := Nat.le_trans skipped.remaining within
  have single : ∀ {state : ParserState}, start.Advances state → state.remaining ≤ bound →
      Ends (singleBody statement) state (Progressed False True start) := by
    intro state moved within
    exact (ends_single_body nested moved.inside within).weaken fun _ _ progressed =>
      (progressed.since moved).relax False.elim id
  unfold body
  rw [ends_bind, ends_context]
  by_cases brace : ParsingContext.atPunctuation .openBrace start.context.fork.skipLines = true
  · simp only [brace, if_true]
    rw [ends_bind, ends_set_context, merged]
    have opening : start.context.skipLines.current.kind = .punctuation .openBrace :=
      eq_of_beq brace
    exact (ends_braced nested skipped.inside opening (Nat.le_succ_of_le within')).weaken
      fun _ _ progressed => (progressed.since skipped).relax False.elim id
  · simp only [brace, Bool.false_eq_true, if_false]
    -- A body that would not be indented deeper is taken to be missing.
    have absent : Ends (do
        if (start.context.fork.skipLines.cursor.atEnd ||
            start.context.fork.skipLines.cursor.indentation ≤ start.context.cursor.indentation) then
          reportHere (.expectedToken "\x7b")
          let place ← previousEnd
          return some (← onTree (SourceTree.create (.body []) (.point place)))
        else
          setContext (start.context.merge start.context.fork.skipLines)
          singleBody statement) start (Progressed False True start) := by
      split
      · rw [ends_bind]
        refine ends_report_here inside fun final told _ => ?_
        rw [ends_bind, ends_previous_end, ends_bind, ends_on_tree]
        exact SourceTree.ends_create _ _ fun node tree =>
          progressed_some node (told.trans (advances_same told.inside rfl)) False.elim
      · rw [ends_bind, ends_set_context, merged]
        exact single skipped within'
    split
    · rw [ends_bind]
      refine ends_advance inside fun next moved _ => ?_
      rw [ends_bind]
      exact ends_finish _ _ moved.inside fun node final made _ =>
        progressed_some node (moved.trans made) False.elim
    · exact absent
    · exact absent
    · exact single (.refl inside) within

theorem ends_condition {start : ParserState} (inside : start.context.cursor.Inside)
    (keyword : start.context.current.kind = .keyword .ifWord)
    (within : start.remaining ≤ bound + 1) :
    Ends (condition statement) start (Progressed True False start) := by
  unfold condition
  rw [ends_bind, ends_current, ends_bind]
  refine ends_begin inside (by simp [keyword]) fun next past => ?_
  refine ends_part past.toAdvances False.elim (ends_predicate past.inside) rfl
    fun test read predicate => ?_
  have past := past.later predicate.advances
  refine ends_part past.toAdvances False.elim (ends_body nested past.inside (past.fewer within)) rfl
    fun thenBody behind taken => ?_
  have past := past.later taken.advances
  have skipped : behind.Advances { behind with context := behind.context.skipLines } :=
    advances_moved (Cursor.follows_skip_while _ past.inside)
  rw [ends_bind, ends_context]
  by_cases otherwise : ParsingContext.atKeyword .elseWord
      behind.context.fork.skipLines = true
  · simp only [otherwise, if_true]
    rw [ends_bind, ends_set_context, merge_fork_skip_lines past.inside, ends_bind]
    refine ends_advance skipped.inside fun next last _ => ?_
    have past := past.later (skipped.trans last)
    refine ends_part past.toAdvances False.elim
      (ends_body nested past.inside (past.fewer within)) rfl fun elseBody final taken => ?_
    have past := past.later taken.advances
    exact ends_made _ _ past
  · simp only [otherwise, Bool.false_eq_true, if_false]
    exact ends_made _ _ past

theorem ends_while_loop {start : ParserState} (inside : start.context.cursor.Inside)
    (keyword : start.context.current.kind = .keyword .whileWord)
    (within : start.remaining ≤ bound + 1) :
    Ends (whileLoop statement) start (Progressed True False start) := by
  unfold whileLoop
  rw [ends_bind, ends_current, ends_bind]
  refine ends_begin inside (by simp [keyword]) fun next past => ?_
  refine ends_part past.toAdvances False.elim (ends_predicate past.inside) rfl
    fun test read predicate => ?_
  have past := past.later predicate.advances
  refine ends_part past.toAdvances False.elim (ends_body nested past.inside (past.fewer within)) rfl
    fun block behind repeated => ?_
  have past := past.later repeated.advances
  exact ends_made _ _ past

theorem ends_any_statement {start : ParserState} (inside : start.context.cursor.Inside)
    (within : start.remaining ≤ bound + 1) :
    Ends (anyStatement statement) start (Progressed True False start) := by
  unfold anyStatement
  rw [ends_bind, ends_current]
  split
  · rename_i kind
    exact ends_condition nested inside kind within
  · rename_i kind
    exact ends_while_loop nested inside kind within
  · rename_i kind
    exact ends_return_statement inside kind
  · rename_i kind
    exact ends_jump _ inside (by simp [kind])
  · rename_i kind
    exact ends_jump _ inside (by simp [kind])
  · rename_i kind
    exact (ends_braced nested inside kind within).weaken fun _ _ progressed =>
      progressed.relax id False.elim
  · exact ends_simple_statement inside

end Productions

theorem ends_statement_within (budget : Nat) :
    StatementsEnd budget (statementWithin budget) := by
  induction budget with
  | zero =>
      intro state inside enough
      exact absurd enough (not_exhausted inside)
  | succ budget ih =>
      intro state inside enough
      exact ends_any_statement ih inside enough

theorem ends_statement (bound : Nat) : StatementsEnd bound statement := by
  intro start inside _
  unfold statement
  rw [ends_bind, ends_remaining]
  exact ends_statement_within start.remaining start inside (Nat.le_refl _)

/-!
Items and the root that holds them.
-/

theorem ends_path_from {budget : Nat} {segments : List String} {start : ParserState}
    (inside : start.context.cursor.Inside) (enough : start.remaining ≤ budget) :
    Ends (pathFrom budget segments) start (Progressed True True start) := by
  induction budget generalizing start segments with
  | zero => exact absurd enough (not_exhausted inside)
  | succ budget ih =>
      unfold pathFrom
      rw [ends_bind]
      refine ends_word inside ?_ (ends_missing (.refl inside))
      intro segment named past
      rw [ends_bind]
      refine ends_accept past.inside ?_ (progressed_past _ past)
      intro next dot
      have past := past.later dot.toAdvances
      exact (ih past.inside (past.fewer enough)).weaken fun _ _ rest => rest.behind past

theorem ends_path_item (kind : ModulePath → NodeKind NodeId) {start : ParserState}
    (inside : start.context.cursor.Inside) :
    Ends (pathItem kind) start (Progressed True True start) := by
  unfold pathItem
  rw [ends_bind, ends_current, ends_bind]
  refine ends_advance inside fun next moved _ => ?_
  rw [ends_bind, ends_remaining]
  refine ends_part moved id (ends_path_from moved.inside (Nat.le_refl _)) rfl
    fun segments read path => ?_
  have past := path.past.since moved
  rw [ends_bind]
  exact ends_finish _ _ past.inside fun node final made _ => ends_ended (past.later made)

theorem ends_parameter (start : ParserState) (inside : start.context.cursor.Inside) :
    Ends parameter start (Progressed True False start) := by
  unfold parameter
  rw [ends_bind, ends_current]
  refine ends_part (.refl inside) False.elim (ends_type inside) rfl fun node typed type => ?_
  rw [ends_bind]
  refine ends_word type.advances.inside ?_ (progressed_none type.advances False.elim)
  intro name named word
  exact ends_made _ _ (type.past.later word.toAdvances)

theorem ends_parameters_from {budget : Nat} {found : List NodeId} {start : ParserState}
    (inside : start.context.cursor.Inside) (enough : start.remaining ≤ budget) :
    Ends (parametersFrom budget found) start (Progressed True True start) := by
  induction budget generalizing start found with
  | zero => exact absurd enough (not_exhausted inside)
  | succ budget ih =>
      unfold parametersFrom
      rw [ends_bind]
      refine (ends_attempt inside (ends_parameter
        { start with context := start.context.fork } inside)).weaken ?_
      rintro result read ⟨progressed, -⟩
      cases result with
      | none => exact ends_missing progressed.advances
      | some node =>
          rw [ends_bind]
          refine ends_skip_lines progressed.advances.inside fun skipped moved => ?_
          have past := progressed.past.later moved
          rw [ends_bind]
          refine ends_accept moved.inside ?_ ?_
          · intro behind comma
            rw [if_pos rfl, ends_bind]
            refine ends_skip_lines comma.inside fun next last => ?_
            have past := past.later (comma.later last).toAdvances
            exact (ih past.inside (past.fewer enough)).weaken fun _ _ rest => rest.behind past
          · rw [if_neg Bool.false_ne_true, ends_bind]
            exact ends_expect moved.inside fun final closed =>
              progressed_past _ (past.later closed)

theorem ends_parameters {start : ParserState} (inside : start.context.cursor.Inside) :
    Ends parameters start (Progressed True True start) := by
  unfold parameters
  rw [ends_bind]
  refine ends_accept inside ?_ (ends_missing (.refl inside))
  intro opened past
  rw [Bool.not_true, if_neg Bool.false_ne_true, ends_bind]
  refine ends_skip_lines past.inside fun skipped moved => ?_
  have past := past.later moved
  rw [ends_bind]
  refine ends_accept moved.inside ?_ ?_
  · intro final closed
    exact progressed_past _ (past.later closed.toAdvances)
  · rw [if_neg Bool.false_ne_true, ends_bind, ends_remaining]
    exact (ends_parameters_from past.inside (Nat.le_refl _)).weaken
      fun _ _ rest => rest.behind past

theorem ends_typed_header (start : ParserState) (inside : start.context.cursor.Inside) :
    Ends typedHeader start (Progressed True False start) := by
  unfold typedHeader
  refine ends_part (.refl inside) False.elim (ends_type inside) rfl fun node typed type => ?_
  rw [ends_bind]
  refine ends_word type.advances.inside ?_ (progressed_none type.advances False.elim)
  intro name named word
  have past := type.past.later word.toAdvances
  rw [ends_bind, ends_context]
  split
  · exact progressed_past _ past
  · exact progressed_none past.toAdvances False.elim

theorem ends_plain_header {start : ParserState} (inside : start.context.cursor.Inside) :
    Ends plainHeader start (Progressed True True start) := by
  unfold plainHeader
  rw [ends_bind, ends_current]
  split
  · rename_i name found
    have going : start.context.current.kind ≠ .endOfFile := by
      intro ended
      rw [ended] at found
      cases found
    split
    · rw [ends_bind]
      exact ends_begin inside going fun final past => progressed_past name past
    · exact ends_missing (.refl inside)
  · exact ends_missing (.refl inside)

theorem ends_header {start : ParserState} (inside : start.context.cursor.Inside) :
    Ends header start (Progressed True True start) := by
  unfold header
  rw [ends_bind]
  refine (ends_attempt inside (ends_typed_header
    { start with context := start.context.fork } inside)).weaken ?_
  rintro result tried ⟨progressed, -⟩
  cases result with
  | some found => exact progressed_past _ progressed.past
  | none =>
      rw [ends_bind]
      refine (ends_plain_header progressed.advances.inside).weaken fun result final plain => ?_
      cases result with
      | some name => exact progressed_past _ (plain.past.since progressed.advances)
      | none => exact plain.failed progressed.advances

theorem ends_function {start : ParserState} (inside : start.context.cursor.Inside) :
    Ends function start (Progressed True True start) := by
  unfold function
  rw [ends_bind, ends_current, ends_bind]
  refine ends_advance inside fun next moved _ => ?_
  refine ends_part moved id (ends_header moved.inside) rfl fun named behind header => ?_
  have past := header.past.since moved
  refine ends_part past.toAdvances id (ends_parameters past.inside) rfl
    fun nodes listed parameters => ?_
  have past := past.later parameters.advances
  refine ends_part past.toAdvances id (ends_body (ends_statement _) past.inside (Nat.le_refl _)) rfl
    fun block final taken => ?_
  exact ends_made _ _ (past.later taken.advances)

/-- An item moves past a token also where its production fails. -/
theorem ends_item {production : Parser (Option NodeId)} {start : ParserState}
    (going : start.context.current.kind ≠ .endOfFile)
    (ends : Ends production start (Progressed True True start)) :
    Ends (item production) start fun _ final => start.Past final := by
  unfold item
  rw [ends_bind, ends_context, ends_bind]
  refine ends.weaken fun result read progressed => ?_
  cases result with
  | some node => exact progressed.past
  | none =>
      have moved := progressed.advances
      have skips : ∀ {state : ParserState}, start.Past state →
          Ends (do
            move (ParsingContext.skipUntil startsItem)
            return ([] : List NodeId)) state fun _ final => start.Past final := by
        intro state past
        rw [ends_bind]
        exact ends_skip_until past.inside fun final last => past.later last
      unfold recover
      rw [ends_bind, ends_bind, ends_context]
      split
      · rename_i stuck
        have same : read.context.current = start.context.current := by
          unfold ParsingContext.current Cursor.current
          rw [moved.cursor.sequence, eq_of_beq stuck]
        rw [ends_bind]
        refine ends_begin moved.inside (by rw [same]; exact going) fun next past => ?_
        rw [← ends_bind]
        exact skips (past.since moved)
      · rename_i further
        have different : start.position ≠ read.position := fun same => further (by
          unfold ParserState.position at same
          rw [same]
          exact beq_self_eq_true _)
        rw [← ends_bind]
        exact skips ⟨moved, Nat.lt_of_le_of_ne moved.position different⟩

theorem ends_skip_run {start : ParserState} {holds : PUnit → ParserState → Prop}
    (inside : start.context.cursor.Inside)
    (unstarted : startsItem start.context.current.kind = false)
    (met : ∀ final, start.Past final → holds ⟨⟩ final) : Ends skipRun start holds := by
  have going : start.context.cursor.atEnd = false := by
    unfold startsItem at unstarted
    rw [Bool.or_eq_false_iff] at unstarted
    exact unstarted.2
  have ahead := Cursor.skip_while_strict (fun kind => !startsItem kind) inside going
    (by rw [Bool.not_eq_true']; exact unstarted)
  have past : start.Past { start with context := start.context.skipUntil startsItem } :=
    ⟨advances_moved (Cursor.follows_skip_while _ inside), ahead⟩
  unfold skipRun
  rw [ends_bind, ends_current, ends_bind, ends_move, ends_bind, ends_previous_end]
  exact ends_report past.inside fun final told _ => met final (past.later told)

/-- The loop over items goes on up to the end of the file. -/
theorem ends_items_from {budget : Nat} {items : Items} {start : ParserState}
    (inside : start.context.cursor.Inside) (enough : start.remaining ≤ budget) :
    Ends (itemsFrom budget items) start fun _ final =>
      start.Advances final ∧ final.context.current.kind = .endOfFile := by
  induction budget generalizing start items with
  | zero => exact absurd enough (not_exhausted inside)
  | succ budget ih =>
      unfold itemsFrom
      rw [ends_bind]
      refine ends_skip_lines inside fun state skipped => ?_
      have enough := Nat.le_trans skipped.remaining enough
      -- Every round moves past a token.
      have again : ∀ {next : ParserState} {items : Items}, state.Past next →
          Ends (itemsFrom budget items) next fun _ final =>
            start.Advances final ∧ final.context.current.kind = .endOfFile := by
        intro next items past
        refine (ih past.inside (past.fewer enough)).weaken ?_
        rintro all final ⟨rest, ended⟩
        exact ⟨skipped.trans (past.toAdvances.trans rest), ended⟩
      have rounds : ∀ {production : Parser (Option NodeId)} {more : List NodeId → Items},
          state.context.current.kind ≠ .endOfFile →
          Ends production state (Progressed True True state) →
          Ends (do
            let found ← item production
            itemsFrom budget (more found)) state fun _ final =>
              start.Advances final ∧ final.context.current.kind = .endOfFile := by
        intro production more going ends
        rw [ends_bind]
        exact (ends_item going ends).weaken fun found next past => again past
      rw [ends_bind, ends_current]
      split
      · rename_i kind
        exact ⟨skipped, kind⟩
      · rename_i kind
        rw [ends_bind]
        exact ends_begin skipped.inside (by simp [kind]) fun next past => again past
      · rename_i kind
        exact rounds (by simp [kind]) (ends_path_item _ skipped.inside)
      · rename_i kind
        exact rounds (by simp [kind]) (ends_path_item _ skipped.inside)
      · rename_i kind
        exact rounds (by simp [kind]) (ends_function skipped.inside)
      · rename_i notEnd _ notModule notUse notFunction
        rw [ends_bind]
        exact ends_skip_run skipped.inside (by simp_all [startsItem])
          fun next past => again past

theorem ends_root {start : ParserState} (inside : start.context.cursor.Inside) :
    Ends root start fun _ final =>
      start.Advances final ∧ final.context.current.kind = .endOfFile := by
  unfold root
  rw [ends_bind, ends_remaining, ends_bind]
  refine (ends_items_from inside (Nat.le_refl _)).weaken ?_
  rintro items state ⟨moved, ended⟩
  rw [ends_bind, ends_current, ends_on_tree]
  exact SourceTree.ends_create _ _ fun node tree =>
    ⟨moved.trans (advances_same moved.inside rfl), ended⟩

/-!
All productions together, at any place of any sequence.
-/

/-- What holds of the productions where the parser stands. A body alone may return something
without having moved, and a block does so only at the end of the file, where no brace opens
it. Statements are tried on forks, so only the productions around them report a failure. -/
structure ProductionsAdvance (start : ParserState) : Prop where
  type : Ends type start (Progressed True True start)
  expression : ∀ minimum, Ends (expression minimum) start (Progressed True True start)
  arguments : Ends (arguments Parser.expression) start (Progressed True True start)
  parameters : Ends parameters start (Progressed True True start)
  statement : Ends statement start (Progressed True False start)
  body : Ends (body Parser.statement) start (Progressed False True start)
  block : Ends (block Parser.statement) start
    (Progressed (start.context.current.kind ≠ .endOfFile) True start)
  moduleDefinition : Ends (pathItem .moduleDef) start (Progressed True True start)
  moduleUse : Ends (pathItem .useDef) start (Progressed True True start)
  function : Ends function start (Progressed True True start)
  root : Ends root start fun _ final =>
    start.Advances final ∧ final.context.current.kind = .endOfFile
  skipping : ∀ skipped, start.context.cursor.sequence.StopsAt skipped start.position
    (start.context.cursor.skipWhile skipped).position

end Parser

end ModuleLang
