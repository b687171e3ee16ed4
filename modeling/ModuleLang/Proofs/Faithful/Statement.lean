import ModuleLang.Parsing.Statement
import ModuleLang.Proofs.Faithful.Expression

/-!
Statements and bodies are spelt with what they are read from. A statement that fails
inside a block is passed over token by token, and a body that is missing is made up; both
are reported, and behind a report nothing is claimed about what was passed over.
-/

namespace ModuleLang

namespace Arena

/-- A statement is spelt with its terminator, too. -/
theorem Spelt.ended {arena : Arena} {node : NodeId} {kinds more : List TokenKind}
    (spelt : arena.Spelt node kinds) (silent : Silent more) : arena.Spelt node (kinds ++ more) where
  carries := by
    rw [List.filter_append, silent.unmarked, List.append_nil]
    exact spelt.carries
  settles := spelt.settles.append_neutral silent.neutral

end Arena

theorem AssignOperator.spelt_of_operator {spelling : Operator} {operator : AssignOperator}
    (found : ofOperator? spelling = some operator) : operator.spelt = spelling := by
  cases spelling <;> cases found <;> rfl

namespace ParserState

/-- Adopting the place behind the line ends that follow. -/
theorem passes_ahead (start : ParserState) : start.Passes [] { start with
    context := start.context.merge start.context.fork.skipLines } where
  goes :=
    { cursor := by
        intro inside
        rw [Parser.merge_fork_skip_lines inside]
        exact Cursor.follows_skip_while _ inside
      diagnostics := List.prefix_append _ _
      keeps := .refl start }
  read inside _ := by
    rw [Parser.merge_fork_skip_lines inside, List.append_nil]
    exact Cursor.behind_skip_while (fun _ => TokenKind.solid_of_trivia) inside

/-- A token that is seen ahead is there. -/
theorem inside_of_ahead {start : ParserState} {kind : TokenKind}
    (found : start.context.fork.skipLines.current.kind = kind) (going : kind ≠ .endOfFile) :
    start.context.cursor.Inside := by
  have seen : (start.context.cursor.skipWhile TokenKind.isTrivia).current.kind = kind := found
  apply Cursor.inside_of_skipped
  rw [seen]
  exact going

end ParserState

namespace Parser

open ParserState Nesting

variable {start : ParserState}

theorem silent_end : Silent [.endOfStatement] := ⟨rfl, (settles_plain rfl).neutral⟩

theorem ensures_end_statement {holds : PUnit → ParserState → Prop}
    (met : ∀ kinds final, Silent kinds → start.Passes kinds final → holds ⟨⟩ final) :
    Ensures endStatement start holds := by
  -- A semicolon is moved past if it is there.
  have closes : ∀ {state : ParserState}, start.Passes [] state →
      Ensures (do if (← current).kind == .endOfStatement then advance) state holds := by
    intro state passes
    rw [ensures_bind, ensures_current]
    split
    · rename_i found
      apply ensures_advance
      intro final more
      rw [eq_of_beq found] at more
      exact met _ final silent_end (passes.trans more)
    · exact (ensures_pure _ _ _).mpr (met [] state .nil passes)
  unfold endStatement
  rw [ensures_bind, ensures_context]
  split
  · rw [ensures_bind, ensures_current, ensures_bind, ensures_move, ensures_bind,
      ensures_previous_end, ensures_bind]
    have skips : start.Goes { start with
        context := start.context.skipUntil ParsingContext.endsStatement } :=
      goes_moved fun inside => Cursor.follows_skip_while _ inside
    apply ensures_report
    intro final goes grows
    exact closes ((skips.trans goes).passes (grows.before skips))
  · exact closes (.refl start)

/-- A production whose statement ends with it. -/
theorem accounts_ended {loud : Prop} {origin : ParserState} {node : NodeId}
    {kinds : List TokenKind} (passes : origin.Passes kinds start)
    (spelt : start.tree.arena.Spelt node kinds) :
    Ensures (do
      endStatement
      return some node) start (Accounts loud Arena.Spelt origin) := by
  rw [ensures_bind]
  apply ensures_end_statement
  intro more final silent also
  apply (ensures_pure _ _ _).mpr
  exact accounts_some ((spelt.later also.goes.keeps).ended silent) (passes.trans also)

theorem faithful_definition : Faithful False Arena.Spelt definition := by
  intro start
  unfold definition
  rw [ensures_bind, ensures_current]
  refine accounts_then (faithful_type start) (.refl start) False.elim rfl ?_
  intro type kinds typed typeSpelt passes
  rw [ensures_bind]
  apply ensures_word
  · intro name named more
    have typeSpelt := typeSpelt.later more.goes.keeps
    have passes := passes.trans more
    rw [ensures_bind]
    apply ensures_made (.definition (.some typeSpelt.carries)) (by simp [List.filter_cons])
      (typeSpelt.settles.append (settles_word name))
    intro node defined more _ spelt
    have passes := passes.on more
    rw [ensures_bind, ensures_context]
    split
    · exact (ensures_pure _ _ _).mpr (accounts_some spelt passes)
    · rw [ensures_bind, ensures_context]
      split
      · exact (ensures_pure _ _ _).mpr (accounts_none passes.goes False.elim)
      · rename_i assigned
        rw [Bool.not_eq_true', Bool.not_eq_false] at assigned
        have kind : defined.context.current.kind = .operator .assign := eq_of_beq assigned
        rw [ensures_bind]
        apply ensures_advance
        intro next more
        rw [kind] at more
        have passes := passes.trans more
        have spelt := spelt.later more.goes.keeps
        refine accounts_then (faithful_expression 0 next) passes.goes id rfl ?_
        intro value others read valueSpelt more
        refine accounts_finish (passes.trans more)
          (.assign (spelt.carries.later more.goes.keeps) valueSpelt.carries)
          (by simp [List.filter_cons, AssignOperator.spelt]) ?_
        rw [List.append_assoc]
        exact spelt.settles.append (valueSpelt.settles.behind_operator .assign)
  · exact (ensures_pure _ _ _).mpr (accounts_none passes.goes False.elim)

theorem kind_of_assignment {kind : TokenKind} {operator : AssignOperator}
    (found : assignment? kind = some operator) : kind = .operator operator.spelt := by
  cases kind with
  | operator spelling => rw [AssignOperator.spelt_of_operator found]
  | _ => cases found

theorem faithful_assignment : Faithful False Arena.Spelt assignment := by
  intro start
  unfold assignment
  rw [ensures_bind, ensures_current]
  refine accounts_then (faithful_expression _ start) (.refl start) id rfl ?_
  intro target kinds read targetSpelt passes
  rw [ensures_bind, ensures_kind]
  split
  · exact (ensures_pure _ _ _).mpr (accounts_none passes.goes False.elim)
  · rw [ensures_bind, ensures_current]
    split
    · exact (ensures_pure _ _ _).mpr (accounts_none passes.goes False.elim)
    · rename_i operator found
      rw [ensures_bind]
      apply ensures_advance
      intro next more
      rw [kind_of_assignment found] at more
      have passes := passes.trans more
      have targetSpelt := targetSpelt.later more.goes.keeps
      refine accounts_then (faithful_expression 0 next) passes.goes id rfl ?_
      intro value others final valueSpelt more
      refine accounts_finish (passes.trans more)
        (.assign (targetSpelt.carries.later more.goes.keeps) valueSpelt.carries)
        (by simp [List.filter_cons]) ?_
      rw [List.append_assoc]
      exact targetSpelt.settles.append (valueSpelt.settles.behind_operator operator.spelt)

theorem faithful_expression_statement : Faithful False Arena.Spelt expressionStatement := by
  intro start
  unfold expressionStatement
  refine accounts_then (faithful_expression 0 start) (.refl start) id rfl ?_
  intro node kinds read spelt passes
  rw [ensures_bind, ensures_kind]
  split
  · exact (ensures_pure _ _ _).mpr (accounts_some spelt passes)
  · exact (ensures_pure _ _ _).mpr (accounts_none passes.goes False.elim)

theorem faithful_simple_statement : Faithful False Arena.Spelt simpleStatement := by
  intro start
  -- An alternative behind others begins where they began.
  have tries : ∀ {production : Parser (Option NodeId)} {state : ParserState},
      Faithful False Arena.Spelt production → start.Passes [] state →
      Ensures (attempt production) state (Accounts False Arena.Spelt start) := by
    intro production state faithful passes
    apply ensures_attempt (faithful _)
    · intro node kinds final spelt more
      exact accounts_some spelt (passes.since more)
    · intro final more _
      exact accounts_none (passes.on more).goes False.elim
  have closes : ∀ {result : Option NodeId} {state : ParserState},
      Accounts False Arena.Spelt start result state →
      Ensures (do
        if result.isSome then endStatement
        return result) state (Accounts False Arena.Spelt start) := by
    intro result state accounts
    cases result with
    | none => exact (ensures_pure _ _ _).mpr accounts
    | some node =>
        rcases accounts.passes node rfl with ⟨kinds, spelt, passes⟩
        exact accounts_ended passes spelt
  unfold simpleStatement
  rw [ensures_bind]
  apply ensures_attempt (faithful_definition _)
  · intro node kinds final spelt passes
    exact closes (accounts_some spelt passes)
  · intro first passes _
    rw [ensures_bind]
    apply ensures_attempt (faithful_assignment _)
    · intro node kinds final spelt more
      exact closes (accounts_some spelt (passes.since more))
    · intro second more _
      rw [ensures_bind]
      apply (tries faithful_expression_statement (passes.on more)).weaken
      intro result final accounts
      exact closes accounts

theorem faithful_predicate : Faithful False Arena.Spelt predicate := by
  intro start
  unfold predicate
  rw [ensures_bind]
  apply ensures_accept
  · intro opened passes
    rw [Bool.not_true, if_neg Bool.false_ne_true, ensures_bind]
    apply ensures_skip_lines
    intro skipped more
    have passes := passes.on more
    refine accounts_then (faithful_expression 0 skipped) passes.goes id rfl ?_
    intro value kinds read spelt more
    have passes := passes.trans more
    rw [ensures_bind]
    apply ensures_skip_lines
    intro behind more
    have carries := spelt.carries.later more.goes.keeps
    have passes := passes.on more
    rw [ensures_bind]
    apply ensures_expect
    intro final more
    apply (ensures_pure _ _ _).mpr
    refine accounts_some ⟨?_, settles_grouped spelt.settles⟩ (passes.trans more)
    simpa [List.filter_cons] using carries.later more.goes.keeps
  · exact faithful_expression 0 start

theorem ensures_return_statement (begins : start.context.current.kind = .keyword .returnWord) :
    Ensures returnStatement start (Accounts False Arena.Spelt start) := by
  unfold returnStatement
  rw [ensures_bind, ensures_current, ensures_bind]
  apply ensures_advance
  intro next passes
  rw [begins] at passes
  rw [ensures_bind, ensures_context]
  split
  · rw [ensures_bind]
    apply ensures_made (.returnFrom .none) rfl (settles_keyword .returnWord)
    intro node made more _ spelt
    exact accounts_ended (passes.on more) spelt
  · refine accounts_then (faithful_expression 0 next) passes.goes id rfl ?_
    intro value kinds read valueSpelt more
    have passes := passes.trans more
    rw [ensures_bind]
    apply ensures_made (.returnFrom (.some valueSpelt.carries)) (by simp [List.filter_cons])
      ((settles_keyword .returnWord).append valueSpelt.settles)
    intro node made more _ spelt
    exact accounts_ended (passes.on more) spelt

theorem ensures_jump {kind : NodeKind NodeId} {form : NodeKind (List TokenKind)}
    {reserved : Keyword} (begins : start.context.current.kind = .keyword reserved)
    (alike : ∀ arena : Arena,
      kind.Alike (fun _ child kinds => arena.Carries child kinds) form)
    (same : form.marks = [.keyword reserved]) :
    Ensures (jump kind) start (Accounts False Arena.Spelt start) := by
  unfold jump
  rw [ensures_bind, ensures_current, ensures_bind]
  apply ensures_advance
  intro next passes
  rw [begins] at passes
  rw [ensures_bind]
  refine ensures_made (alike _) ?_ (settles_keyword reserved) ?_
  · exact same
  intro node made more _ spelt
  exact accounts_ended (passes.on more) spelt

section Productions

variable {statement : Parser (Option NodeId)} (faithful : Faithful False Arena.Spelt statement)

include faithful

/-- Whatever was passed over in a block because it failed was reported before. -/
theorem ensures_block_from {budget : Nat} {failing : Bool} {found : List NodeId}
    {before : List TokenKind} {origin : ParserState} (passes : origin.Passes before start)
    (held : Arena.Lists Neutral start.tree.arena found before)
    (told : failing = true → origin.Grows start) :
    Ensures (blockFrom statement budget failing found) start fun all final =>
      ∃ kinds, Arena.Lists Neutral final.tree.arena all kinds ∧ origin.Passes kinds final := by
  induction budget generalizing start failing found before with
  | zero => exact ensures_throw _ _ _
  | succ budget ih =>
      unfold blockFrom
      rw [ensures_bind]
      apply ensures_skip_lines
      intro state more
      have passes := passes.on more
      have held := held.later more.goes.keeps
      have told := fun failed => (told failed).after more.goes
      rw [ensures_bind]
      apply ensures_accept
      · intro closed more
        rw [if_pos rfl]
        apply (ensures_pure _ _ _).mpr
        exact ⟨_, (held.later more.goes.keeps).separated (.sign rfl), passes.trans more⟩
      · rw [if_neg Bool.false_ne_true, ensures_bind, ensures_current]
        split
        · rw [ensures_bind]
          apply ensures_report_here
          intro final goes grows
          apply (ensures_pure _ _ _).mpr
          exact ⟨before, held.later goes.keeps,
            (passes.goes.trans goes).passes (grows.before passes.goes)⟩
        · rename_i kind
          rw [ensures_bind]
          apply ensures_advance
          intro next more
          rw [kind] at more
          have told := fun failed => (told failed).after more.goes
          exact ih (passes.trans more) ((held.later more.goes.keeps).separated silent_end) told
        · rw [ensures_bind]
          apply ensures_attempt (faithful _)
          · intro node kinds next spelt more
            exact ih (passes.trans more) ((held.later more.goes.keeps).concat spelt)
              (fun failed => absurd failed Bool.false_ne_true)
          · intro dropped more _
            have passes := passes.on more
            have held := held.later more.goes.keeps
            have told := fun failed => (told failed).after more.goes
            have passes_over : ∀ {last : ParserState}, dropped.Goes last → origin.Grows last →
                Ensures (do
                  advance
                  blockFrom statement budget true found) last fun all final =>
                    ∃ kinds, Arena.Lists Neutral final.tree.arena all kinds ∧
                      origin.Passes kinds final := by
              intro last goes grows
              rw [ensures_bind]
              apply ensures_advance
              intro next more
              have held := (held.later goes.keeps).later more.goes.keeps
              have goes := (passes.goes.trans goes).trans more.goes
              have grows := grows.after more.goes
              exact ih (goes.passes grows) held fun _ => grows
            cases failing with
            | true => exact passes_over (.refl dropped) (told rfl)
            | false =>
                dsimp only
                rw [Bool.not_false, if_pos rfl, ensures_bind]
                apply ensures_report_here
                intro last goes grows
                exact passes_over goes (grows.before passes.goes)

theorem ensures_block (begins : start.context.current.kind = .punctuation .openBrace) :
    Ensures (block statement) start (Accounts True Arena.Spelt start) := by
  unfold block
  rw [ensures_bind, ensures_current, ensures_bind]
  apply ensures_advance
  intro next passes
  rw [begins] at passes
  rw [ensures_bind, ensures_remaining, ensures_bind]
  apply (ensures_block_from faithful (.refl next) (.nil _)
    (fun failed => absurd failed Bool.false_ne_true)).weaken
  rintro statements final ⟨kinds, lists, more⟩
  rcases lists.carries with ⟨each, held, same⟩
  refine accounts_finish (passes.trans more) (.body held) (by simp [same]) ?_
  exact Settles.append_neutral (settles_plain rfl) lists.nested

theorem faithful_single_body : Faithful True Arena.Spelt (singleBody statement) := by
  intro start
  unfold singleBody
  rw [ensures_bind, ensures_current, ensures_bind]
  apply ensures_attempt (faithful _)
  · intro node kinds final spelt passes
    exact accounts_finish passes (.body (.cons spelt.carries .nil)) (by simp) spelt.settles
  · intro dropped passes _
    exact accounts_missing passes.goes

theorem faithful_body : Faithful True Arena.Spelt (body statement) := by
  intro start
  -- The body stands on a later row.
  have ahead : Ensures (do
      setContext (start.context.merge start.context.fork.skipLines)
      singleBody statement) start (Accounts True Arena.Spelt start) := by
    rw [ensures_bind, ensures_set_context]
    apply (faithful_single_body faithful _).weaken
    intro result final accounts
    exact accounts.since start.passes_ahead
  -- A body that would not be indented deeper is taken to be missing.
  have absent : Ensures (do
      if (start.context.fork.skipLines.cursor.atEnd ||
          start.context.fork.skipLines.cursor.indentation ≤ start.context.cursor.indentation) then
        reportHere (.expectedToken "\x7b")
        let place ← previousEnd
        return some (← onTree (SourceTree.create (.body []) (.point place)))
      else
        setContext (start.context.merge start.context.fork.skipLines)
        singleBody statement) start (Accounts True Arena.Spelt start) := by
    split
    · rw [ensures_bind]
      apply ensures_report_here
      intro reported goes grows
      rw [ensures_bind, ensures_previous_end, ensures_bind]
      apply ensures_create
      intro node final more kind
      apply (ensures_pure _ _ _).mpr
      have grows := grows.after more.goes
      -- Nothing was read for it, which its tokens need not tell behind a report.
      have spelt : final.tree.arena.Spelt node [.punctuation .openBrace] :=
        ⟨Arena.carries_node kind (.body .nil), settles_plain rfl⟩
      exact accounts_some spelt ((goes.trans more.goes).passes grows)
    · exact ahead
  unfold body
  rw [ensures_bind, ensures_context]
  by_cases brace : ParsingContext.atPunctuation .openBrace start.context.fork.skipLines = true
  · simp only [brace, if_true]
    rw [ensures_bind, ensures_set_context]
    have kind : start.context.fork.skipLines.current.kind = .punctuation .openBrace :=
      eq_of_beq brace
    have inside := inside_of_ahead kind nofun
    have opening : (start.context.merge start.context.fork.skipLines).current.kind =
        .punctuation .openBrace := by
      rw [merge_fork_skip_lines inside]
      exact kind
    apply (ensures_block faithful opening).weaken
    intro result final accounts
    have since := accounts.since start.passes_ahead
    exact since
  · simp only [brace, Bool.false_eq_true, if_false]
    split
    · rename_i kind
      rw [ensures_bind]
      apply ensures_advance
      intro next passes
      rw [kind] at passes
      exact accounts_finish passes (.body .nil) rfl (settles_plain rfl)
    · exact absent
    · exact absent
    · exact faithful_single_body faithful start

theorem ensures_condition (begins : start.context.current.kind = .keyword .ifWord) :
    Ensures (condition statement) start (Accounts False Arena.Spelt start) := by
  unfold condition
  rw [ensures_bind, ensures_current, ensures_bind]
  apply ensures_advance
  intro next passes
  rw [begins] at passes
  refine accounts_then (faithful_predicate next) passes.goes id rfl ?_
  intro predicate kinds read predicateSpelt more
  have passes := passes.trans more
  refine accounts_then (faithful_body faithful read) passes.goes False.elim rfl ?_
  intro thenBody others behind thenSpelt more
  have predicateSpelt := predicateSpelt.later more.goes.keeps
  have passes := passes.trans more
  have settles := ((settles_keyword .ifWord).append predicateSpelt.settles).append thenSpelt.settles
  rw [ensures_bind, ensures_context]
  by_cases otherwise : ParsingContext.atKeyword .elseWord behind.context.fork.skipLines = true
  · simp only [otherwise, if_true]
    have kind : behind.context.fork.skipLines.current.kind = .keyword .elseWord :=
      eq_of_beq otherwise
    have inside := inside_of_ahead kind nofun
    rw [ensures_bind, ensures_set_context, ensures_bind]
    have passes := passes.on behind.passes_ahead
    apply ensures_advance
    intro last more
    have current : (behind.context.merge behind.context.fork.skipLines).current.kind =
        .keyword .elseWord := by
      rw [merge_fork_skip_lines inside]
      exact kind
    dsimp only at more
    rw [current] at more
    have predicateCarries := predicateSpelt.carries.later more.goes.keeps
    have thenCarries := thenSpelt.carries.later more.goes.keeps
    have passes := passes.trans more
    refine accounts_then (faithful_body faithful last) passes.goes False.elim rfl ?_
    intro elseBody rest final elseSpelt more
    refine accounts_finish (passes.trans more)
      (.condition (predicateCarries.later more.goes.keeps) (thenCarries.later more.goes.keeps)
        (.some elseSpelt.carries)) (by simp [List.filter_cons]) ?_
    exact (settles.append (settles_keyword .elseWord)).append elseSpelt.settles
  · simp only [otherwise, Bool.false_eq_true, if_false]
    exact accounts_finish passes (.condition predicateSpelt.carries thenSpelt.carries .none)
      (by simp [List.filter_cons]) settles

theorem ensures_while_loop (begins : start.context.current.kind = .keyword .whileWord) :
    Ensures (whileLoop statement) start (Accounts False Arena.Spelt start) := by
  unfold whileLoop
  rw [ensures_bind, ensures_current, ensures_bind]
  apply ensures_advance
  intro next passes
  rw [begins] at passes
  refine accounts_then (faithful_predicate next) passes.goes id rfl ?_
  intro predicate kinds read predicateSpelt more
  have passes := passes.trans more
  refine accounts_then (faithful_body faithful read) passes.goes False.elim rfl ?_
  intro block others final blockSpelt more
  have predicateSpelt := predicateSpelt.later more.goes.keeps
  refine accounts_finish (passes.trans more) (.loop predicateSpelt.carries blockSpelt.carries)
    (by simp [List.filter_cons]) ?_
  exact ((settles_keyword .whileWord).append predicateSpelt.settles).append blockSpelt.settles

theorem faithful_any_statement : Faithful False Arena.Spelt (anyStatement statement) := by
  intro start
  unfold anyStatement
  rw [ensures_bind, ensures_current]
  split
  · rename_i kind
    exact ensures_condition faithful kind
  · rename_i kind
    exact ensures_while_loop faithful kind
  · rename_i kind
    exact ensures_return_statement kind
  · rename_i kind
    exact ensures_jump kind (fun _ => .breakLoop) rfl
  · rename_i kind
    exact ensures_jump kind (fun _ => .continueLoop) rfl
  · rename_i kind
    apply (ensures_block faithful kind).weaken
    intro result final accounts
    exact ⟨accounts.goes, fun _ => False.elim, accounts.passes⟩
  · exact faithful_simple_statement start

end Productions

theorem faithful_statement_within (budget : Nat) :
    Faithful False Arena.Spelt (statementWithin budget) := by
  induction budget with
  | zero =>
      intro start
      exact ensures_throw _ _ _
  | succ budget ih => exact faithful_any_statement ih

theorem faithful_statement : Faithful False Arena.Spelt statement := by
  intro start
  unfold statement
  rw [ensures_bind, ensures_remaining]
  exact faithful_statement_within _ start

end Parser

end ModuleLang
