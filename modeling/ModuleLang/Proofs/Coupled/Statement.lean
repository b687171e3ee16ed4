import ModuleLang.Proofs.Coupled.Expression
import ModuleLang.Proofs.Faithful.Statement
import ModuleLang.Proofs.Token.Layout

/-!
Statements and bodies in two runs of the parser. Where a body is missing, the first run
may have come to the end of its file while the second one takes what follows for the body.
That has been reported, and whatever the first run is in the middle of then ends there.
-/

namespace ModuleLang

namespace Coupling

variable (coupling : Coupling)

/-- A result of the first run at the end of its file, behind a report. -/
structure Lost {value : Type} (result : Option value) (final : ParserState) : Prop where
  lenient : coupling.lenient
  found : result.isSome = true
  told : final.context.diagnostics ≠ []
  ended : final.context.skipLines.current.kind = .endOfFile

/-- Results of a production that may lose the second run. -/
inductive Meets {value image : Type} (related : value → image → Prop) :
    Option value → ParserState → Option image → ParserState → Prop
  | agree {result : Option value} {twin : Option image} {final last : ParserState}
      (agrees : coupling.Agrees related 0 result final twin last) : Meets related result final twin last
  | lost {result : Option value} {twin : Option image} {final last : ParserState}
      (lost : coupling.Lost result final) : Meets related result final twin last

/-- Two productions that go on in step unless the second run is lost. -/
def Meeting {value image : Type} (related : value → image → Prop)
    (production : Parser (Option value)) (twin : Parser (Option image)) : Prop :=
  ∀ start other, coupling.Paired 0 start other →
    Together production twin start other (coupling.Meets related)

variable {coupling} {value image : Type} {related : value → image → Prop}

theorem Lost.as {result : Option value} {state : ParserState} (lost : coupling.Lost result state)
    {other : Option image} {final : ParserState} (found : other.isSome = true)
    (stayed : final.context = state.context) : coupling.Lost other final := by
  refine ⟨lost.lenient, found, ?_, ?_⟩
  · rw [stayed]
    exact lost.told
  · rw [stayed]
    exact lost.ended

end Coupling

namespace ParsingContext

/-- What is behind line ends can be moved past, if it is not the end of the file. -/
theorem solid_behind_lines {context : ParsingContext} (inside : context.cursor.Inside)
    (going : context.skipLines.current.kind ≠ .endOfFile) :
    context.skipLines.current.kind.isSolid = true := by
  rw [TokenKind.isSolid, Bool.and_eq_true, Bool.not_eq_true', bne_iff_ne]
  exact ⟨Cursor.counts_skip_lines inside, going⟩

/-- Skipping line ends stays at the end of the file. -/
theorem ended_of_current {context : ParsingContext} (ended : context.current.kind = .endOfFile) :
    context.skipLines.current.kind = .endOfFile := by
  have stays : ∀ (budget : Nat) (cursor : Cursor), cursor.current.kind = .endOfFile →
      cursor.skipWithin TokenKind.isTrivia budget = cursor := by
    intro budget cursor kind
    cases budget with
    | zero => rfl
    | succ budget =>
        unfold Cursor.skipWithin
        rw [Cursor.atEnd, kind]
        rfl
  have same : context.cursor.skipLines = context.cursor := stays _ _ ended
  change context.cursor.skipLines.current.kind = _
  rw [same]
  exact ended

end ParsingContext

namespace Parser

open ParserState

variable {coupling : Coupling} {start other state : ParserState}

section Results

variable {value image found partner : Type} {related : value → image → Prop}
  {same : found → partner → Prop}

theorem together_agree {production : Parser (Option value)} {twin : Parser (Option image)}
    (ran : Together production twin start other (coupling.Agrees related 0)) :
    Together production twin start other (coupling.Meets related) := by
  apply ran.weaken
  intro result final image last
  exact .agree

theorem together_of_agrees {result : Option value} {twin : Option image}
    {next : Option value → Parser (Option found)} {after : Option image → Parser (Option partner)}
    (agrees : coupling.Agrees related 0 result start twin other)
    (ends : next none = pure none) (also : after none = pure none)
    (present : ∀ value image final last, related value image → coupling.Paired 0 final last →
      Together (next (some value)) (after (some image)) final last (coupling.Meets same)) :
    Together (next result) (after twin) start other (coupling.Meets same) := by
  cases agrees with
  | missing paired =>
      rw [ends, also]
      exact together_agree (together_none paired)
  | present partners paired => exact present _ _ _ _ partners paired

/-- What follows a production that goes on in step. -/
theorem together_in_step {production : Parser (Option value)} {twin : Parser (Option image)}
    {next : Option value → Parser (Option found)} {after : Option image → Parser (Option partner)}
    (ran : Together production twin start other (coupling.Agrees related 0))
    (ends : next none = pure none) (also : after none = pure none)
    (present : ∀ value image final last, related value image → coupling.Paired 0 final last →
      Together (next (some value)) (after (some image)) final last (coupling.Meets same)) :
    Together (production >>= next) (twin >>= after) start other (coupling.Meets same) := by
  rw [together_bind]
  apply ran.weaken
  intro result final image last agrees
  exact together_of_agrees agrees ends also present

/-- What follows a production that may lose the second run. -/
theorem together_unless {production : Parser (Option value)} {twin : Parser (Option image)}
    {next : Option value → Parser (Option found)} {after : Option image → Parser (Option partner)}
    (ran : Together production twin start other (coupling.Meets related))
    (ends : next none = pure none) (also : after none = pure none)
    (present : ∀ value image final last, related value image → coupling.Paired 0 final last →
      Together (next (some value)) (after (some image)) final last (coupling.Meets same))
    (lost : ∀ value final, coupling.Lost (some value) final →
      Ensures (next (some value)) final coupling.Lost) :
    Together (production >>= next) (twin >>= after) start other (coupling.Meets same) := by
  rw [together_bind]
  apply ran.weaken
  intro result final image last meets
  cases meets with
  | agree agrees => exact together_of_agrees agrees ends also present
  | lost missed =>
      cases result with
      | none => cases missed.found
      | some value =>
          apply Together.of_left
          apply (lost value final missed).weaken
          intro result final missed image last
          exact .lost missed

/-- What is tried out and loses the second run is kept. -/
theorem together_attempt_unless {production : Parser (Option value)} {twin : Parser (Option image)}
    {holds : Option value → ParserState → Option image → ParserState → Prop}
    {carried : Arena → value → List TokenKind → Prop}
    (paired : coupling.Paired 0 start other) (meeting : coupling.Meeting related production twin)
    (faithful : Faithful False carried production)
    (present : ∀ value image final last, related value image → coupling.Paired 0 final last →
      holds (some value) final (some image) last)
    (missing : ∀ final last, final.context = start.context → coupling.Paired 0 final last →
      holds none final none last)
    (lost : ∀ value final twin last, coupling.Lost (some value) final →
      holds (some value) final twin last) :
    Together (attempt production) (attempt twin) start other holds := by
  unfold attempt
  rw [together_bind, together_context, together_bind, together_set_context, together_bind]
  apply ((meeting _ _ paired.forked).and_left (faithful _)).weaken
  rintro result final image last ⟨meets, accounts⟩
  cases meets with
  | agree agrees =>
      cases agrees with
      | missing inner =>
          dsimp only
          rw [together_bind, together_set_context]
          exact (together_pure _ _).mpr (missing _ _ rfl ⟨inner.trees, paired.contexts⟩)
      | present partners inner =>
          dsimp only
          rw [together_bind, together_move]
          apply (together_pure _ _).mpr
          exact present _ _ _ _ partners
            (inner.moved (coupling.merged paired.contexts inner.contexts))
  | lost missed =>
      cases result with
      | none => cases missed.found
      | some value =>
          have moved : (start.context.merge final.context).cursor = final.context.cursor :=
            Cursor.restore_of_follows (accounts.goes.cursor (coupling.inside paired.forked.contexts))
          apply Together.of_left
          dsimp only
          rw [ensures_bind, ensures_move]
          apply (ensures_pure _ _ _).mpr
          intro twin last
          refine lost _ _ _ _ ⟨missed.lenient, rfl, ?_, ?_⟩
          · exact List.append_ne_nil_of_right_ne_nil _ missed.told
          · change (start.context.merge final.context).cursor.skipLines.current.kind = _
            rw [moved]
            exact missed.ended

/-- The first run makes a node at the end of its file. -/
theorem ensures_lost_made {result : Option value} {kind : NodeKind NodeId} {lower : Position}
    (lost : coupling.Lost result state) :
    Ensures (do return some (← finish kind lower)) state coupling.Lost := by
  unfold finish
  rw [ensures_bind, ensures_bind, ensures_previous_end, ensures_on_tree]
  constructor
  intro node tree _
  exact (ensures_pure _ _ _).mpr (lost.as rfl rfl)

end Results

theorem together_end_statement {holds : PUnit → ParserState → PUnit → ParserState → Prop}
    (paired : coupling.Paired 0 start other)
    (met : ∀ final last, coupling.Paired 0 final last → holds ⟨⟩ final ⟨⟩ last) :
    Together endStatement endStatement start other holds := by
  -- A semicolon is moved past if it is there.
  have closes : ∀ {start other : ParserState}, coupling.Paired 0 start other →
      Together (do if (← current).kind == .endOfStatement then advance)
        (do if (← current).kind == .endOfStatement then advance) start other holds := by
    intro start other paired
    rw [together_bind, together_current,
      @Coupling.Paired.same_test _ _ _ _ _ (fun kind => kind == .endOfStatement) paired rfl]
    split
    · rename_i found
      apply together_advance paired
      · rw [eq_of_beq found]
        rfl
      · intro final last paired
        exact met final last (paired.shallower (Nat.zero_le _))
    · exact (together_pure _ _).mpr (met _ _ paired)
  unfold endStatement
  rw [together_bind, together_context, paired.at_statement_end]
  split
  · have starts := coupling.starts paired.contexts
    have passed := coupling.ends (coupling.finished paired.contexts)
    rw [together_bind, together_current, together_bind, together_move, together_bind,
      together_previous_end, together_bind]
    have paired := paired.moved (coupling.finished paired.contexts)
    unfold ParserState.passed
    rw [starts, passed, ← Span.lowered_reaching]
    apply together_report paired
    intro final last paired
    exact closes paired
  · exact closes paired

/-- A production whose statement ends with it. -/
theorem together_ended {node partner : NodeId} (same : coupling.Partner node partner)
    (paired : coupling.Paired 0 start other) :
    Together (do
      endStatement
      return some node) (do
      endStatement
      return some partner) start other (coupling.Agrees coupling.Partner 0) := by
  rw [together_bind]
  apply together_end_statement paired
  intro final last paired
  exact together_some same paired

theorem together_definition :
    coupling.Couples coupling.Partner definition definition := by
  intro depth start other paired
  have starts := coupling.starts paired.contexts
  unfold definition
  rw [together_bind, together_current]
  refine together_then (together_type paired) rfl rfl ?_
  rintro type _ read seen rfl paired
  rw [together_bind]
  apply together_word paired
  · intro name named called paired
    rw [together_bind]
    apply together_finish paired rfl starts
    intro node made mirror paired
    rw [together_bind, together_context, paired.at_statement_end]
    split
    · exact together_some rfl paired
    · rw [together_bind, together_context, paired.at_operator]
      split
      · exact together_none paired
      · rename_i assigned
        rw [Bool.not_eq_true', Bool.not_eq_false] at assigned
        have kind : made.context.current.kind = .operator .assign := eq_of_beq assigned
        rw [together_bind]
        apply together_advance paired (by rw [kind]; rfl)
        intro next after paired
        rw [kind] at paired
        refine together_then (together_expression 0 _ _ _ paired) rfl rfl ?_
        rintro value _ behind beyond rfl paired
        exact together_made paired rfl starts
  · exact together_none paired

/-- What is asked of the kind of a node does not depend on the numbers of others. -/
theorem any_kind {test : NodeKind NodeId → Bool} {depth : Nat}
    (same : ∀ kind, test (kind.map (NodeId.raised coupling.ids)) = test kind)
    (paired : coupling.Paired depth start other) (node : NodeId) :
    (other.tree.arena.kind? (node.raised coupling.ids)).any test =
      (start.tree.arena.kind? node).any test := by
  rw [coupling.kind paired.trees]
  cases start.tree.arena.kind? node with
  | none => rfl
  | some kind => exact same kind

theorem together_assignment :
    coupling.Couples coupling.Partner assignment assignment := by
  intro depth start other paired
  have starts := coupling.starts paired.contexts
  unfold assignment
  rw [together_bind, together_current]
  refine together_then (together_expression _ _ _ _ paired) rfl rfl ?_
  rintro target _ read seen rfl paired
  rw [together_bind, together_kind, any_kind (fun kind => by cases kind <;> rfl) paired]
  split
  · exact together_none paired
  · rw [together_bind, together_current,
      @Coupling.Paired.same_test _ _ _ _ _ assignment? paired rfl]
    split
    · exact together_none paired
    · rename_i operator found
      rw [together_bind]
      apply together_advance paired
      · rw [kind_of_assignment found]
        rfl
      · intro next after paired
        rw [kind_of_assignment found] at paired
        refine together_then (together_expression 0 _ _ _ paired) rfl rfl ?_
        rintro value _ behind beyond rfl paired
        exact together_made paired rfl starts

theorem together_expression_statement :
    coupling.Couples coupling.Partner expressionStatement expressionStatement := by
  intro depth start other paired
  unfold expressionStatement
  refine together_then (together_expression 0 _ _ _ paired) rfl rfl ?_
  rintro node _ read seen rfl paired
  rw [together_bind, together_kind, any_kind (fun kind => by cases kind <;> rfl) paired]
  split
  · exact together_some rfl paired
  · exact together_none paired

theorem together_simple_statement (paired : coupling.Paired 0 start other) :
    Together simpleStatement simpleStatement start other (coupling.Agrees coupling.Partner 0) := by
  have closes : ∀ {result image : Option NodeId} {state twin : ParserState},
      coupling.Agrees coupling.Partner 0 result state image twin →
      Together (do
        if result.isSome then endStatement
        return result) (do
        if image.isSome then endStatement
        return image) state twin (coupling.Agrees coupling.Partner 0) := by
    intro result image state twin agrees
    cases agrees with
    | missing paired => exact together_none paired
    | present same paired => exact together_ended same paired
  unfold simpleStatement
  rw [together_bind]
  apply together_attempt paired (together_definition _ _ _ paired.forked)
  · intro node partner final last same paired
    exact closes (.present same paired)
  · intro first one _ paired
    rw [together_bind]
    apply together_attempt paired (together_assignment _ _ _ paired.forked)
    · intro node partner final last same paired
      exact closes (.present same paired)
    · intro second two _ paired
      rw [together_bind]
      apply together_attempt paired (together_expression_statement _ _ _ paired.forked)
      · intro node partner final last same paired
        exact closes (.present same paired)
      · intro third three _ paired
        exact closes (.missing paired)

theorem together_predicate : coupling.Couples coupling.Partner predicate predicate := by
  intro depth start other paired
  unfold predicate
  rw [together_bind]
  apply together_accept paired
  · intro opened entered paired
    rw [Bool.not_true, if_neg Bool.false_ne_true, together_bind]
    apply together_grouped paired rfl
    intro skipped passed paired
    refine together_then (together_expression 0 _ _ _ paired) rfl rfl ?_
    intro inner partner read seen same paired
    rw [together_bind]
    apply together_grouped paired rfl
    intro behind after paired
    rw [together_bind]
    apply together_expect paired ⟨Nat.le_refl _, Nat.le_succ _⟩
    intro final last paired
    exact together_some same paired
  · exact together_expression 0 _ _ _ paired

theorem together_return_statement (begins : start.context.current.kind = .keyword .returnWord)
    (paired : coupling.Paired 0 start other) :
    Together returnStatement returnStatement start other (coupling.Agrees coupling.Partner 0) := by
  have starts := coupling.starts paired.contexts
  unfold returnStatement
  rw [together_bind, together_current, together_bind]
  apply together_advance paired (by rw [begins]; rfl)
  intro read seen paired
  rw [begins] at paired
  have paired : coupling.Paired 0 read seen := paired
  rw [together_bind, together_context, paired.at_statement_end]
  split
  · rw [together_bind]
    apply together_finish paired rfl starts
    intro node final last paired
    exact together_ended rfl paired
  · refine together_then (together_expression 0 _ _ _ paired) rfl rfl ?_
    rintro value _ behind beyond rfl paired
    rw [together_bind]
    apply together_finish paired rfl starts
    intro node final last paired
    exact together_ended rfl paired

theorem together_jump {kind mirror : NodeKind NodeId} {reserved : Keyword}
    (begins : start.context.current.kind = .keyword reserved)
    (same : mirror = kind.map (NodeId.raised coupling.ids))
    (paired : coupling.Paired 0 start other) :
    Together (jump kind) (jump mirror) start other (coupling.Agrees coupling.Partner 0) := by
  have starts := coupling.starts paired.contexts
  unfold jump
  rw [together_bind, together_current, together_bind]
  apply together_advance paired (by rw [begins]; rfl)
  intro read seen paired
  rw [begins] at paired
  rw [together_bind]
  apply together_finish paired same starts
  intro node final last paired
  exact together_ended rfl paired

section Productions

variable {statement twin : Parser (Option NodeId)}
  (meeting : coupling.Meeting coupling.Partner statement twin)
  (faithful : Faithful False Arena.Spelt statement)

/-- At the end of the file the block ends. -/
theorem ensures_ended_block_from {budget : Nat} {failing : Bool} {statements : List NodeId}
    (lenient : coupling.lenient) (ended : state.context.skipLines.current.kind = .endOfFile) :
    Ensures (blockFrom statement budget failing statements) state fun all final =>
      coupling.Lost (some all) final := by
  cases budget with
  | zero => exact ensures_throw _ _ _
  | succ budget =>
      unfold blockFrom
      rw [ensures_bind]
      unfold skipLines
      rw [ensures_move, ensures_bind]
      unfold accept
      rw [ensures_bind, ensures_context, ParsingContext.atPunctuation, ended, if_neg (by decide),
        ensures_pure, if_neg Bool.false_ne_true, ensures_bind, ensures_current]
      dsimp only
      rw [ended]
      dsimp only
      rw [ensures_bind]
      unfold reportHere
      rw [ensures_move, ensures_pure]
      refine ⟨lenient, rfl, ?_, ParsingContext.ended_of_current ended⟩
      exact List.append_ne_nil_of_right_ne_nil _ (List.cons_ne_nil _ _)

include meeting faithful

theorem together_block_from (budget bound : Nat) (failing : Bool) {statements others : List NodeId}
    (partners : coupling.Partners statements others) (paired : coupling.Paired 0 start other) :
    Together (blockFrom statement budget failing statements) (blockFrom twin bound failing others)
      start other fun all final whole last =>
        coupling.Partners all whole ∧ coupling.Paired 0 final last ∨
          coupling.Lost (some all) final := by
  induction budget generalizing bound start other statements others failing with
  | zero => exact together_throw_left _
  | succ budget ih =>
      cases bound with
      | zero => exact together_throw_right _
      | succ bound =>
          rcases coupling.skipped paired.contexts with ⟨ahead, kinds⟩ | ⟨lenient, -, file, -⟩
          · have inside := coupling.inside paired.contexts
            have paired := paired.moved ahead
            unfold blockFrom
            rw [together_bind]
            unfold skipLines
            rw [together_move, together_bind]
            apply together_accept paired
            · intro final last paired
              rw [if_pos rfl, if_pos rfl]
              exact (together_pure _ _).mpr (.inl ⟨partners, paired⟩)
            · rw [if_neg Bool.false_ne_true, if_neg Bool.false_ne_true, together_bind,
                together_current]
              dsimp only
              rw [← kinds]
              split
              · rw [together_bind]
                apply together_report_here paired
                intro final last paired
                exact (together_pure _ _).mpr (.inl ⟨partners, paired⟩)
              · rename_i kind
                rw [together_bind]
                apply together_advance paired (by dsimp only; rw [kind]; rfl)
                intro next after paired
                exact ih bound failing partners (paired.shallower (Nat.zero_le _))
              · rename_i going _
                have solid := ParsingContext.solid_behind_lines inside going
                rw [together_bind]
                apply together_attempt_unless paired meeting faithful
                · intro node partner final last same paired
                  exact ih bound false (partners.concat same) paired
                · intro dropped left stayed paired
                  have passes_over : ∀ {one two : ParserState},
                      one.context.current.kind.isSolid = true → coupling.Paired 0 one two →
                      Together (do
                        advance
                        blockFrom statement budget true statements) (do
                        advance
                        blockFrom twin bound true others) one two fun all final whole last =>
                          coupling.Partners all whole ∧ coupling.Paired 0 final last ∨
                            coupling.Lost (some all) final := by
                    intro one two solid paired
                    rw [together_bind]
                    apply together_advance paired solid
                    intro next after paired
                    exact ih bound true partners (paired.shallower (Nat.zero_le _))
                  have solid : dropped.context.current.kind.isSolid = true := by
                    rw [stayed]
                    exact solid
                  cases failing with
                  | true => exact passes_over solid paired
                  | false =>
                      dsimp only
                      rw [Bool.not_false, if_pos rfl, if_pos rfl, together_bind]
                      unfold reportHere
                      rw [together_move]
                      exact passes_over solid
                        (paired.moved (coupling.reportedHere paired.contexts _))
                · intro node final partner last lost
                  apply Together.of_left
                  apply (ensures_ended_block_from lost.lenient lost.ended).weaken
                  intro all final lost whole last
                  exact .inr lost
          · apply Together.of_left
            apply (ensures_ended_block_from lenient file).weaken
            intro all final lost whole last
            exact .inr lost

theorem together_block (begins : start.context.current.kind = .punctuation .openBrace)
    (paired : coupling.Paired 0 start other) :
    Together (block statement) (block twin) start other (coupling.Meets coupling.Partner) := by
  have starts := coupling.starts paired.contexts
  unfold block
  rw [together_bind, together_current, together_bind]
  apply together_advance paired (by rw [begins]; rfl)
  intro opened entered paired
  rw [begins] at paired
  rw [together_bind, together_remaining, together_bind]
  apply (together_block_from meeting faithful _ _ false rfl paired).weaken
  rintro statements final others last (⟨rfl, paired⟩ | lost)
  · exact together_agree (together_made paired rfl starts)
  · apply Together.of_left
    apply (ensures_lost_made lost).weaken
    intro node final lost partner last
    exact .lost lost

theorem together_single_body :
    coupling.Meeting coupling.Partner (singleBody statement) (singleBody twin) := by
  intro start other paired
  have starts := coupling.starts paired.contexts
  unfold singleBody
  rw [together_bind, together_current, together_bind]
  apply together_attempt_unless paired meeting faithful
  · rintro node _ final last rfl paired
    exact together_agree (together_made paired rfl starts)
  · intro dropped left stayed paired
    exact together_agree (together_missing paired)
  · intro node final partner last lost
    apply Together.of_left
    apply (ensures_lost_made lost).weaken
    intro node final lost partner last
    exact .lost lost

/-- A body that would not be indented deeper is taken to be missing. -/
theorem together_later_body (paired : coupling.Paired 0 start other)
    (ahead : coupling.beside 0 start.context.fork.skipLines other.context.fork.skipLines)
    (kinds : start.context.fork.skipLines.current.kind = other.context.fork.skipLines.current.kind) :
    Together (do
      if (start.context.fork.skipLines.cursor.atEnd ||
          start.context.fork.skipLines.cursor.indentation ≤ start.context.cursor.indentation) then
        reportHere (.expectedToken "\x7b")
        let place ← previousEnd
        return some (← onTree (SourceTree.create (.body []) (.point place)))
      else
        setContext (start.context.merge start.context.fork.skipLines)
        singleBody statement) (do
      if (other.context.fork.skipLines.cursor.atEnd ||
          other.context.fork.skipLines.cursor.indentation ≤ other.context.cursor.indentation) then
        reportHere (.expectedToken "\x7b")
        let place ← previousEnd
        return some (← onTree (SourceTree.create (.body []) (.point place)))
      else
        setContext (other.context.merge other.context.fork.skipLines)
        singleBody twin) start other (coupling.Meets coupling.Partner) := by
  have ended : other.context.fork.skipLines.cursor.atEnd =
      start.context.fork.skipLines.cursor.atEnd := by
    change (other.context.fork.skipLines.current.kind == .endOfFile) = _
    rw [← kinds]
    rfl
  rw [ended, coupling.indented ahead, coupling.indented paired.contexts]
  split
  · rw [together_bind]
    apply together_report_here paired
    intro final last paired
    have passed : last.passed = final.passed.lowered coupling.rows :=
      coupling.ends paired.contexts
    rw [together_bind, together_previous_end, passed, together_bind]
    apply together_create paired
    intro node final last paired
    exact (together_pure _ _).mpr (.agree (.present rfl paired))
  · rw [together_bind, together_set_context]
    exact together_single_body meeting faithful _ _
      (paired.moved (coupling.merged paired.contexts ahead))

theorem together_body : coupling.Meeting coupling.Partner (body statement) (body twin) := by
  intro start other paired
  have inside := coupling.inside paired.contexts
  have starts := coupling.starts paired.contexts
  unfold body
  rw [together_bind, together_context]
  rcases coupling.skipped (coupling.forked paired.contexts) with
    ⟨ahead, kinds⟩ | ⟨lenient, row, file, -⟩
  · have brace : other.context.fork.skipLines.atPunctuation .openBrace =
        start.context.fork.skipLines.atPunctuation .openBrace := by
      unfold ParsingContext.atPunctuation
      rw [kinds]
    have later := together_later_body meeting faithful paired ahead kinds
    by_cases opens : start.context.fork.skipLines.atPunctuation .openBrace = true
    · rw [opens] at brace
      simp only [brace, opens, if_true]
      rw [together_bind, together_set_context]
      apply together_block meeting faithful
      · dsimp only
        rw [merge_fork_skip_lines inside]
        exact eq_of_beq opens
      · exact paired.moved (coupling.merged paired.contexts ahead)
    · rw [Bool.not_eq_true] at opens
      rw [opens] at brace
      simp only [brace, opens, Bool.false_eq_true, if_false]
      rcases paired.alike with same | ⟨file, row⟩
      · rw [← same]
        split
        · rename_i kind
          rw [together_bind]
          apply together_advance paired (by rw [kind]; rfl)
          intro read seen paired
          rw [kind] at paired
          exact together_agree (together_made paired rfl starts)
        · exact later
        · exact later
        · exact together_single_body meeting faithful _ _ paired
      · simp only [file, row]
        exact later
  · -- The body is missing in the first file.
    have absent : Ensures (do
        reportHere (.expectedToken "\x7b")
        let place ← previousEnd
        return some (← onTree (SourceTree.create (.body []) (.point place)))) start
          coupling.Lost := by
      rw [ensures_bind]
      unfold reportHere
      rw [ensures_move, ensures_bind, ensures_previous_end, ensures_bind, ensures_on_tree]
      constructor
      intro node tree _
      rw [ensures_pure]
      exact ⟨lenient, rfl, List.append_ne_nil_of_right_ne_nil _ (List.cons_ne_nil _ _), file⟩
    have closed : start.context.fork.skipLines.cursor.atEnd = true := by
      rw [Cursor.atEnd, beq_iff_eq]
      exact file
    have opens : start.context.fork.skipLines.atPunctuation .openBrace = false := by
      rw [ParsingContext.atPunctuation, file]
      rfl
    apply Together.of_left
    simp only [opens, closed, Bool.false_eq_true, if_false, Bool.true_or, if_true]
    have kind : start.context.current.kind = .endOfLine ∨
        start.context.current.kind = .endOfFile := row
    have lost : Ensures (do
        reportHere (.expectedToken "\x7b")
        let place ← previousEnd
        return some (← onTree (SourceTree.create (.body []) (.point place)))) start
          fun result final => ∀ partner last,
            coupling.Meets coupling.Partner result final partner last := by
      apply absent.weaken
      intro result final lost partner last
      exact .lost lost
    rcases kind with kind | kind
    · simp only [kind]
      exact lost
    · simp only [kind]
      exact lost

theorem together_condition (begins : start.context.current.kind = .keyword .ifWord)
    (paired : coupling.Paired 0 start other) :
    Together (condition statement) (condition twin) start other
      (coupling.Meets coupling.Partner) := by
  have starts := coupling.starts paired.contexts
  unfold condition
  rw [together_bind, together_current, together_bind]
  apply together_advance paired (by rw [begins]; rfl)
  intro read seen paired
  rw [begins] at paired
  refine together_in_step (together_predicate _ _ _ paired) rfl rfl ?_
  rintro predicate _ read seen rfl paired
  refine together_unless (together_body meeting faithful _ _ paired) rfl rfl ?_ ?_
  · rintro thenBody _ behind beyond rfl paired
    have inside := coupling.inside paired.contexts
    rw [together_bind, together_context]
    rcases coupling.skipped (coupling.forked paired.contexts) with
      ⟨ahead, kinds⟩ | ⟨lenient, row, file, other⟩
    · have same : beyond.context.fork.skipLines.atKeyword .elseWord =
          behind.context.fork.skipLines.atKeyword .elseWord := by
        unfold ParsingContext.atKeyword
        rw [kinds]
      by_cases otherwise : behind.context.fork.skipLines.atKeyword .elseWord = true
      · rw [otherwise] at same
        simp only [same, otherwise, if_true]
        have kind : (behind.context.merge behind.context.fork.skipLines).current.kind =
            .keyword .elseWord := by
          rw [merge_fork_skip_lines inside]
          exact eq_of_beq otherwise
        rw [together_bind, together_set_context, together_bind]
        apply together_advance (paired.moved (coupling.merged paired.contexts ahead))
        · dsimp only
          rw [kind]
          rfl
        · intro next after paired
          dsimp only at paired
          rw [kind] at paired
          refine together_unless (together_body meeting faithful _ _ paired) rfl rfl ?_ ?_
          · rintro elseBody _ final last rfl paired
            exact together_agree (together_made paired rfl starts)
          · intro elseBody final lost
            exact ensures_lost_made lost
      · rw [Bool.not_eq_true] at otherwise
        rw [otherwise] at same
        simp only [same, otherwise, Bool.false_eq_true, if_false]
        exact together_agree (together_made paired rfl starts)
    · have here : behind.context.fork.skipLines.atKeyword .elseWord = false := by
        rw [ParsingContext.atKeyword, file]
        rfl
      have there : beyond.context.fork.skipLines.atKeyword .elseWord = false :=
        beq_false_of_ne other
      simp only [here, there, Bool.false_eq_true, if_false]
      exact together_agree (together_made paired rfl starts)
  · intro thenBody final lost
    have here : final.context.fork.skipLines.atKeyword .elseWord = false := by
      have ended : final.context.fork.skipLines.current.kind = .endOfFile := lost.ended
      rw [ParsingContext.atKeyword, ended]
      rfl
    rw [ensures_bind, ensures_context]
    simp only [here, Bool.false_eq_true, if_false]
    exact ensures_lost_made lost

theorem together_while_loop (begins : start.context.current.kind = .keyword .whileWord)
    (paired : coupling.Paired 0 start other) :
    Together (whileLoop statement) (whileLoop twin) start other
      (coupling.Meets coupling.Partner) := by
  have starts := coupling.starts paired.contexts
  unfold whileLoop
  rw [together_bind, together_current, together_bind]
  apply together_advance paired (by rw [begins]; rfl)
  intro read seen paired
  rw [begins] at paired
  refine together_in_step (together_predicate _ _ _ paired) rfl rfl ?_
  rintro predicate _ read seen rfl paired
  refine together_unless (together_body meeting faithful _ _ paired) rfl rfl ?_ ?_
  · rintro block _ final last rfl paired
    exact together_agree (together_made paired rfl starts)
  · intro block final lost
    exact ensures_lost_made lost

theorem together_any_statement :
    coupling.Meeting coupling.Partner (anyStatement statement) (anyStatement twin) := by
  intro start other paired
  unfold anyStatement
  rw [together_bind, together_current]
  rcases paired.alike with same | ⟨file, row⟩
  · rw [← same]
    split
    · rename_i kind
      exact together_condition meeting faithful kind paired
    · rename_i kind
      exact together_while_loop meeting faithful kind paired
    · rename_i kind
      exact together_agree (together_return_statement kind paired)
    · rename_i kind
      exact together_agree (together_jump kind rfl paired)
    · rename_i kind
      exact together_agree (together_jump kind rfl paired)
    · rename_i kind
      exact together_block meeting faithful kind paired
    · exact together_agree (together_simple_statement paired)
  · simp only [file, row]
    exact together_agree (together_simple_statement paired)

end Productions

theorem together_statement_within (budget bound : Nat) :
    coupling.Meeting coupling.Partner (statementWithin budget) (statementWithin bound) := by
  induction budget generalizing bound with
  | zero =>
      intro start other paired
      exact together_throw_left _
  | succ budget ih =>
      cases bound with
      | zero =>
          intro start other paired
          exact together_throw_right _
      | succ bound =>
          exact together_any_statement (ih bound) (faithful_statement_within budget)

theorem together_statement : coupling.Meeting coupling.Partner statement statement := by
  intro start other paired
  unfold statement
  rw [together_bind, together_remaining]
  exact together_statement_within _ _ _ _ paired

end Parser

end ModuleLang
