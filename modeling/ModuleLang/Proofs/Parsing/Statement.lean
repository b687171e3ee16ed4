import ModuleLang.Parsing.Statement
import ModuleLang.Proofs.Parsing.Expression

/-!
Statements and bodies. Every alternative that is tried for a simple statement
runs from the same place, and only the tree remembers those that failed. A body
need not move past a token, so what is proved about it is relative to the
production that it belongs to, which is under way.
-/

namespace ModuleLang.Parser

open ParserState

variable {limit : Position}

theorem yields_end_statement {start : ParserState} {holds : PUnit → ParserState → Prop}
    (sound : start.Sound limit) (met : ∀ final, start.Reaches limit final → holds ⟨⟩ final) :
    Yields endStatement start holds := by
  -- A semicolon is moved past if it is there.
  have closes : ∀ {state : ParserState}, start.Reaches limit state →
      Yields (do if (← current).kind == .endOfStatement then advance) state holds := by
    intro state reached
    rw [yields_bind, yields_current]
    split
    · exact yields_advance reached.sound fun final moved _ _ _ => met final (reached.trans moved)
    · exact met state reached
  unfold endStatement
  rw [yields_bind, yields_context]
  split
  · rw [yields_bind, yields_current, yields_bind]
    refine yields_skip_until sound fun skipped moved => ?_
    rw [yields_bind, yields_previous_end, yields_bind]
    refine yields_report moved.sound (reaching_le_limit sound moved.sound)
      fun reported further _ => ?_
    exact closes (moved.trans further)
  · exact closes (.refl sound)

theorem is_statement_of_stands_alone {kind : NodeKind NodeId} (alone : standsAlone kind = true) :
    kind.isStatement = true := by
  cases kind <;> simp_all [standsAlone, NodeKind.isStatement]

theorem is_place_of_assignable {kind : NodeKind NodeId} (assignable : isAssignable kind = true) :
    kind.isPlace = true := by
  cases kind <;> simp_all [isAssignable, NodeKind.isPlace]

theorem parses_definition {start : ParserState} (sound : start.Sound limit) :
    Parses limit .statement False start.here definition start := by
  unfold Parses definition
  rw [yields_bind, yields_current, yields_bind]
  refine (parses_type sound).weaken fun result typed parsed => ?_
  cases result with
  | none => exact parsed_none parsed.reached False.elim
  | some type =>
      have under := parsed.made type rfl
      rw [yields_bind]
      refine yields_word under.sound ?_ (parsed_none under.reached False.elim)
      intro name named moved _ _
      rw [yields_bind]
      refine yields_finish (.definition (some type) name) (under.later moved) rfl
        fun node defined _ _ made => ?_
      have under := made .target rfl
      rw [yields_bind, yields_context]
      split
      · exact parsed_some _ (made .statement rfl)
      · rw [yields_bind, yields_context]
        split
        · exact parsed_none under.reached False.elim
        · rw [yields_bind]
          refine yields_advance under.sound fun next moved _ _ _ => ?_
          have under := under.later moved
          rw [yields_bind]
          refine (parses_expression 0 under.sound).weaken fun result read parsed => ?_
          cases result with
          | none => exact parsed_none (under.reached.trans parsed.reached) False.elim
          | some value => exact parsed_finish _ (parsed.joined under) rfl rfl

theorem parses_assignment {start : ParserState} (sound : start.Sound limit) :
    Parses limit .statement False start.here assignment start := by
  unfold Parses assignment
  rw [yields_bind, yields_current, yields_bind]
  refine (parses_expression Operator.leadingPower sound).weaken fun result read parsed => ?_
  cases result with
  | none => exact parsed_none parsed.reached False.elim
  | some target =>
      have under := parsed.made target rfl
      rw [yields_bind, yields_kind]
      split
      · exact parsed_none under.reached False.elim
      · rename_i assignable
        have fits : ∀ operator : AssignOperator,
            read.tree.arena.Admitted operator.side target := by
          intro operator
          cases found : read.tree.arena.kind? target with
          | none => simp [found] at assignable
          | some kind =>
              have place := is_place_of_assignable (by simpa [found] using assignable)
              exact ⟨kind, found, operator.side_admits place⟩
        rw [yields_bind, yields_current]
        split
        · exact parsed_none under.reached False.elim
        · rename_i operator _
          have under : Underway limit start.here [(operator.side, target)] start read :=
            ⟨under.reached, under.ahead, under.starts, under.held.recast (by decide) (fits operator)⟩
          rw [yields_bind]
          refine yields_advance under.sound fun next moved _ _ _ => ?_
          have under := under.later moved
          rw [yields_bind]
          refine (parses_expression 0 under.sound).weaken fun result read parsed => ?_
          cases result with
          | none => exact parsed_none (under.reached.trans parsed.reached) False.elim
          | some value => exact parsed_finish _ (parsed.joined under) rfl rfl

theorem parses_expression_statement {start : ParserState} (sound : start.Sound limit) :
    Parses limit .statement False start.here expressionStatement start := by
  unfold Parses expressionStatement
  rw [yields_bind]
  refine (parses_expression 0 sound).weaken fun result read parsed => ?_
  cases result with
  | none => exact parsed_none parsed.reached False.elim
  | some node =>
      have under := parsed.made node rfl
      rw [yields_bind, yields_kind]
      split
      · rename_i alone
        have fits : read.tree.arena.Admitted .statement node := by
          cases found : read.tree.arena.kind? node with
          | none => simp [found] at alone
          | some kind =>
              exact ⟨kind, found, is_statement_of_stands_alone (by simpa [found] using alone)⟩
        exact parsed_some _ ⟨under.reached, under.ahead, under.starts, under.held.recast (by decide) fits⟩
      · exact parsed_none under.reached False.elim

/-- A production whose statement ends with it. -/
theorem parsed_ended {lower : Position} {node : NodeId} {origin state : ParserState}
    (under : Underway limit lower [(.statement, node)] origin state) :
    Yields (do
      endStatement
      return some node) state
      (Parsed limit False lower (fun node => [(.statement, node)]) origin) := by
  rw [yields_bind]
  exact yields_end_statement under.sound fun final moved => parsed_some _ (under.later moved)

theorem parses_simple_statement {start : ParserState} (sound : start.Sound limit) :
    Parses limit .statement False start.here simpleStatement start := by
  -- An alternative that is tried behind others runs from the same place.
  have tries : ∀ {production : Parser (Option NodeId)} {state : ParserState},
      (∀ {state : ParserState}, state.Sound limit →
        Parses limit .statement False state.here production state) →
      start.Reaches limit state → state.context = start.context →
      Yields (attempt production) state fun result final =>
        Parsed limit False start.here (fun node => [(Category.statement, node)]) start result
            final ∧
          (result = none → final.context = start.context) := by
    intro production state parses reached same
    have ran := parsed_attempt reached.sound (parses (sound_fork reached.sound))
    refine ran.weaken ?_
    rintro result final ⟨parsed, dropped⟩
    refine ⟨parsed.since reached ?_, fun failed => (dropped failed).trans same⟩
    change start.here ≤ state.context.current.span.start
    rw [same]
    exact Position.le_refl _
  have closes : ∀ {result : Option NodeId} {state : ParserState},
      Parsed limit False start.here (fun node => [(Category.statement, node)]) start result state →
      Yields (do
        if result.isSome then endStatement
        return result) state
        (Parsed limit False start.here (fun node => [(Category.statement, node)]) start) := by
    intro result state parsed
    cases result with
    | none => exact parsed
    | some node => exact parsed_ended (parsed.made node rfl)
  unfold Parses simpleStatement
  rw [yields_bind]
  refine (tries parses_definition (.refl sound) rfl).weaken ?_
  rintro result first ⟨parsed, dropped⟩
  cases result with
  | some node => exact closes parsed
  | none =>
      rw [yields_bind]
      refine (tries parses_assignment parsed.reached (dropped rfl)).weaken ?_
      rintro result second ⟨parsed, dropped⟩
      cases result with
      | some node => exact closes parsed
      | none =>
          rw [yields_bind]
          refine (tries parses_expression_statement parsed.reached (dropped rfl)).weaken ?_
          rintro result third ⟨parsed, -⟩
          exact closes parsed

theorem parses_predicate {start : ParserState} (sound : start.Sound limit) :
    Parses limit .expression True start.here predicate start := by
  unfold Parses predicate
  rw [yields_bind]
  refine yields_accept sound ?_ (parses_expression 0 sound)
  intro opened moved ahead passed
  have under := Underway.begin moved ahead passed
  rw [Bool.not_true, if_neg Bool.false_ne_true, yields_bind]
  refine yields_skip_lines under.sound fun skipped inside => ?_
  have under := under.later inside
  rw [yields_bind]
  refine (parses_expression 0 under.sound).weaken fun result read parsed => ?_
  cases result with
  | none => exact parsed.failed under.reached
  | some value =>
      have joined := parsed.joined under
      rw [yields_bind]
      refine yields_skip_lines joined.sound fun behind last => ?_
      rw [yields_bind]
      refine yields_expect last.sound fun final closed => ?_
      exact parsed_some _ (joined.later (last.trans closed))

theorem parses_return_statement {start : ParserState} (sound : start.Sound limit)
    (keyword : start.context.current.kind = .keyword .returnWord) :
    Parses limit .statement False start.here returnStatement start := by
  unfold Parses returnStatement
  rw [yields_bind, yields_current, yields_bind]
  refine yields_begin sound (by simp [keyword])
    (by simp [Token.isTrivia, keyword, TokenKind.isTrivia]) fun next under => ?_
  rw [yields_bind, yields_context]
  split
  · rw [yields_bind]
    refine yields_finish (.returnFrom none) under rfl fun node final _ _ made => ?_
    exact parsed_ended (made .statement rfl)
  · rw [yields_bind]
    refine (parses_expression 0 under.sound).weaken fun result read parsed => ?_
    cases result with
    | none => exact parsed_none (under.reached.trans parsed.reached) False.elim
    | some value =>
        rw [yields_bind]
        refine yields_finish (.returnFrom (some value)) (parsed.joined under) rfl
          fun node final _ _ made => ?_
        exact parsed_ended (made .statement rfl)

theorem parses_jump {start : ParserState} {kind : NodeKind NodeId} (sound : start.Sound limit)
    (going : start.context.current.kind ≠ .endOfFile)
    (solid : start.context.current.isTrivia = false) (leaf : kind.slots = [])
    (admits : Category.admits kind .statement = true) :
    Parses limit .statement False start.here (jump kind) start := by
  unfold Parses jump
  rw [yields_bind, yields_current, yields_bind]
  refine yields_begin sound going solid fun next under => ?_
  rw [yields_bind]
  rw [← leaf] at under
  refine yields_finish _ under (NodeKind.unsourced_of_leaf leaf) fun node final _ _ made => ?_
  exact parsed_ended (made .statement admits)

/-- The production for nested statements runs from every state with few enough
tokens left. -/
def ParsesStatements (limit : Position) (bound : Nat) (statement : Parser (Option NodeId)) :
    Prop :=
  ∀ state, state.Sound limit → state.remaining ≤ bound →
    Parses limit .statement False state.here statement state

/-- Slots of a list of statements. -/
def statementSlots (nodes : List NodeId) : List (Category × NodeId) :=
  nodes.map (Prod.mk .statement)

section Productions

variable {bound : Nat} {statement : Parser (Option NodeId)}
  (nested : ParsesStatements limit bound statement)

include nested

theorem yields_block_from {budget : Nat} {failing : Bool} (found : List NodeId)
    {lower : Position} {origin start : ParserState}
    (under : Underway limit lower (statementSlots found) origin start)
    (enough : start.remaining ≤ budget) (within : start.remaining ≤ bound) :
    Yields (blockFrom statement budget failing found) start fun all final =>
      Underway limit lower (statementSlots all) origin final := by
  induction budget generalizing start failing found with
  | zero =>
      have positive := remaining_pos under.sound
      omega
  | succ budget ih =>
      unfold blockFrom
      rw [yields_bind]
      refine yields_skip_lines under.sound fun state skipped => ?_
      have under := under.later skipped
      have enough := Nat.le_trans (remaining_mono skipped) enough
      have within := Nat.le_trans (remaining_mono skipped) within
      rw [yields_bind]
      refine yields_accept under.sound ?_ ?_
      · intro closed moved _ _
        exact under.later moved
      · rw [if_neg Bool.false_ne_true, yields_bind, yields_current]
        -- Every round moves past a token.
        have again : ∀ {next : ParserState} {failing : Bool} {found : List NodeId},
            state.Reaches limit next → state.position < next.position →
            Underway limit lower (statementSlots found) origin next →
            Yields (blockFrom statement budget failing found) next fun all final =>
              Underway limit lower (statementSlots all) origin final :=
          fun moved ahead under => ih _ under (remaining_of_reaches moved ahead enough)
            (Nat.le_trans (remaining_mono moved) within)
        split
        · rw [yields_bind]
          exact yields_report_here under.sound fun final reported _ => under.later reported
        · rename_i kind
          rw [yields_bind]
          refine yields_advance under.sound fun next moved ahead _ _ => ?_
          exact again moved (ahead (by simp [kind])) (under.later moved)
        · rename_i going _
          rw [yields_bind]
          refine (parsed_attempt under.sound
            (nested _ (sound_fork under.sound) within)).weaken ?_
          rintro result tried ⟨parsed, dropped⟩
          cases result with
          | some node =>
              refine again parsed.reached (parsed.made node rfl).ahead ?_
              simpa [statementSlots] using parsed.joined under
          | none =>
              have same := dropped rfl
              -- The token that the statement begins with is passed over.
              have passes : ∀ {last : ParserState}, state.Reaches limit last →
                  last.context.current = state.context.current →
                  Yields (do
                    advance
                    blockFrom statement budget true found) last fun all final =>
                      Underway limit lower (statementSlots all) origin final := by
                intro last reached current
                rw [yields_bind]
                refine yields_advance reached.sound fun next moved ahead _ _ => ?_
                have ahead := ahead (by rw [current]; exact going)
                have whole := reached.trans moved
                exact again whole (Nat.lt_of_le_of_lt reached.position ahead) (under.later whole)
              have current : tried.context.current = state.context.current := by rw [same]
              cases failing with
              | true => exact passes parsed.reached current
              | false =>
                  have sound := parsed.reached.sound
                  exact passes (parsed.reached.trans
                    (reaches_reported sound .invalidStatement (sound.laid.inside _))) current

theorem parses_block {start : ParserState} (sound : start.Sound limit)
    (opening : start.context.current.kind = .punctuation .openBrace)
    (within : start.remaining ≤ bound + 1) (category : Category)
    (admits : ∀ statements : List NodeId, category.admits (.body statements) = true) :
    Parses limit category True start.here (block statement) start := by
  unfold Parses block
  rw [yields_bind, yields_current, yields_bind]
  refine yields_begin sound (by simp [opening])
    (by simp [Token.isTrivia, opening, TokenKind.isTrivia]) fun next under => ?_
  rw [yields_bind, yields_remaining, yields_bind]
  refine (yields_block_from nested [] under (Nat.le_refl _)
    (under.remaining within)).weaken fun statements final under => ?_
  exact parsed_finish (.body statements) under (admits statements) rfl

theorem parses_single_body {start : ParserState} (sound : start.Sound limit)
    (within : start.remaining ≤ bound) :
    Parses limit .body True start.here (singleBody statement) start := by
  unfold Parses singleBody
  rw [yields_bind, yields_current, yields_bind]
  refine (parsed_attempt sound (nested _ (sound_fork sound) within)).weaken ?_
  rintro result tried ⟨parsed, -⟩
  cases result with
  | some node => exact parsed_finish (.body [node]) (parsed.made node rfl) rfl rfl
  | none => exact parsed_missing parsed.reached

theorem parses_body {lower : Position} {slots : List (Category × NodeId)}
    {origin start : ParserState} (under : Underway limit lower slots origin start)
    (within : start.remaining ≤ bound) :
    Yields (body statement) start
      (Parsed limit True lower (fun node => slots ++ [(.body, node)]) origin) := by
  have sound := under.sound
  have merged := merge_fork_skip_lines sound.inside
  have reached : start.Reaches limit { start with context := start.context.skipLines } :=
    reaches_moved sound (Cursor.follows_skip_while _ sound.inside)
  have within' := Nat.le_trans (remaining_mono reached) within
  -- A body that began here belongs to what is under way.
  have belongs : ∀ {state : ParserState} {result : Option NodeId} {final : ParserState},
      start.Reaches limit state →
      Parsed limit True state.here (fun node => [(Category.body, node)]) state result final →
      Parsed limit True lower (fun node => slots ++ [(Category.body, node)]) origin result
        final := by
    intro state result final moved parsed
    cases result with
    | none => exact parsed.failed (under.reached.trans moved)
    | some node => exact parsed_some _ (parsed.joined (under.later moved))
  unfold body
  rw [yields_bind, yields_context]
  by_cases brace : ParsingContext.atPunctuation .openBrace start.context.fork.skipLines = true
  · simp only [brace, if_true]
    rw [yields_bind, yields_set_context, merged]
    have opening : start.context.skipLines.current.kind = .punctuation .openBrace :=
      eq_of_beq brace
    refine (parses_block nested reached.sound opening (Nat.le_succ_of_le within') .body
      fun _ => rfl).weaken fun _ _ parsed => belongs reached parsed
  · simp only [brace, Bool.false_eq_true, if_false]
    -- A body that would not be indented deeper is taken to be missing.
    have absent : Yields (do
        if (start.context.fork.skipLines.cursor.atEnd ||
            start.context.fork.skipLines.cursor.indentation ≤ start.context.cursor.indentation) then
          reportHere (.expectedToken "\x7b")
          let place ← previousEnd
          return some (← onTree (SourceTree.create (.body []) (.point place)))
        else
          setContext (start.context.merge start.context.fork.skipLines)
          singleBody statement) start
        (Parsed limit True lower (fun node => slots ++ [(.body, node)]) origin) := by
      split
      · rw [yields_bind]
        refine yields_report_here sound fun final reported _ => ?_
        have under := under.later reported
        rw [yields_bind, yields_previous_end, yields_bind]
        refine yields_make (.point final.passed) (.refl under.sound)
          (Holds.nil _ _ _) (.refl _) (fun _ => rfl) (Position.le_refl _)
          (passed_le_limit under.sound) rfl fun node last same _ reached _ held => ?_
        exact parsed_some _ (under.append reached (held (Position.le_refl _) .body rfl (by simp))
          (Position.le_refl _))
      · rw [yields_bind, yields_set_context, merged]
        exact (parses_single_body nested reached.sound within').weaken
          fun _ _ parsed => belongs reached parsed
    split
    · rename_i kind
      rw [yields_bind]
      refine yields_begin sound (by simp [kind])
        (by simp [Token.isTrivia, kind, TokenKind.isTrivia]) fun next empty => ?_
      have single : Yields (do return some (← finish (.body []) start.here)) next
          (Parsed limit True start.here (fun node => [(Category.body, node)]) start) :=
        parsed_finish (.body []) empty rfl rfl
      exact single.weaken fun _ _ parsed => belongs (.refl sound) parsed
    · exact absent
    · exact absent
    · exact (parses_single_body nested sound within).weaken
        fun _ _ parsed => belongs (.refl sound) parsed

theorem parses_condition {start : ParserState} (sound : start.Sound limit)
    (keyword : start.context.current.kind = .keyword .ifWord)
    (within : start.remaining ≤ bound + 1) :
    Parses limit .statement False start.here (condition statement) start := by
  unfold Parses condition
  rw [yields_bind, yields_current, yields_bind]
  refine yields_begin sound (by simp [keyword])
    (by simp [Token.isTrivia, keyword, TokenKind.isTrivia]) fun next under => ?_
  rw [yields_bind]
  refine (parses_predicate under.sound).weaken fun result read parsed => ?_
  cases result with
  | none => exact parsed_none (under.reached.trans parsed.reached) False.elim
  | some predicate =>
      have under := parsed.joined under
      rw [yields_bind]
      refine (parses_body nested under (under.remaining within)).weaken
        fun result behind parsed => ?_
      cases result with
      | none => exact parsed_none parsed.reached False.elim
      | some thenBody =>
          have under := parsed.made thenBody rfl
          have moved : behind.Reaches limit { behind with context := behind.context.skipLines } :=
            reaches_moved under.sound (Cursor.follows_skip_while _ under.sound.inside)
          rw [yields_bind, yields_context]
          by_cases otherwise : ParsingContext.atKeyword .elseWord
              behind.context.fork.skipLines = true
          · simp only [otherwise, if_true]
            rw [yields_bind, yields_set_context, merge_fork_skip_lines under.sound.inside,
              yields_bind]
            refine yields_advance moved.sound fun next last _ _ _ => ?_
            have under := under.later (moved.trans last)
            rw [yields_bind]
            refine (parses_body nested under (under.remaining within)).weaken
              fun result final parsed => ?_
            cases result with
            | none => exact parsed_none parsed.reached False.elim
            | some elseBody =>
                exact parsed_finish (.condition predicate thenBody (some elseBody))
                  (parsed.made elseBody rfl) rfl rfl
          · simp only [otherwise, Bool.false_eq_true, if_false]
            exact parsed_finish (.condition predicate thenBody none) under rfl rfl

theorem parses_while_loop {start : ParserState} (sound : start.Sound limit)
    (keyword : start.context.current.kind = .keyword .whileWord)
    (within : start.remaining ≤ bound + 1) :
    Parses limit .statement False start.here (whileLoop statement) start := by
  unfold Parses whileLoop
  rw [yields_bind, yields_current, yields_bind]
  refine yields_begin sound (by simp [keyword])
    (by simp [Token.isTrivia, keyword, TokenKind.isTrivia]) fun next under => ?_
  rw [yields_bind]
  refine (parses_predicate under.sound).weaken fun result read parsed => ?_
  cases result with
  | none => exact parsed_none (under.reached.trans parsed.reached) False.elim
  | some predicate =>
      have under := parsed.joined under
      rw [yields_bind]
      refine (parses_body nested under (under.remaining within)).weaken
        fun result behind parsed => ?_
      cases result with
      | none => exact parsed_none parsed.reached False.elim
      | some block => exact parsed_finish (.loop predicate block) (parsed.made block rfl) rfl rfl

theorem parses_any_statement {start : ParserState} (sound : start.Sound limit)
    (within : start.remaining ≤ bound + 1) :
    Parses limit .statement False start.here (anyStatement statement) start := by
  unfold Parses anyStatement
  rw [yields_bind, yields_current]
  split
  · rename_i kind
    exact parses_condition nested sound kind within
  · rename_i kind
    exact parses_while_loop nested sound kind within
  · rename_i kind
    exact parses_return_statement sound kind
  · rename_i kind
    exact parses_jump sound (by simp [kind]) (by simp [Token.isTrivia, kind, TokenKind.isTrivia])
      rfl rfl
  · rename_i kind
    exact parses_jump sound (by simp [kind]) (by simp [Token.isTrivia, kind, TokenKind.isTrivia])
      rfl rfl
  · rename_i kind
    refine (parses_block nested sound kind within .statement fun _ => rfl).weaken
      fun result final parsed => ?_
    exact ⟨parsed.reached, fun _ => False.elim, parsed.made⟩
  · exact parses_simple_statement sound

end Productions

theorem parses_statement_within (budget : Nat) :
    ParsesStatements limit budget (statementWithin budget) := by
  induction budget with
  | zero =>
      intro state sound enough
      have positive := remaining_pos sound
      omega
  | succ budget ih =>
      intro state sound enough
      exact parses_any_statement ih sound enough

theorem parses_statement {bound : Nat} : ParsesStatements limit bound statement := by
  intro start sound _
  unfold Parses statement
  rw [yields_bind, yields_remaining]
  exact parses_statement_within start.remaining start sound (Nat.le_refl _)

end ModuleLang.Parser
