import ModuleLang.Proofs.Coupled.Coupling
import ModuleLang.Proofs.Faithful.Expression

/-!
Written types in two runs of the parser. Whether a bracket opens a suffix is seen from the
token behind it, which is the next one of both runs.
-/

namespace ModuleLang.Parser

open ParserState

variable {coupling : Coupling} {depth : Nat} {start other : ParserState}

theorem at_rank_suffix (paired : coupling.Paired depth start other) :
    atRankSuffix other.context = atRankSuffix start.context := by
  have opening := paired.at_punctuation .openBracket
  unfold atRankSuffix
  cases opens : start.context.atPunctuation .openBracket with
  | false =>
      rw [opens] at opening
      rw [opening, Bool.false_and, Bool.false_and]
  | true =>
      rw [opens] at opening
      -- Behind the bracket both cursors stand in front of the token that is looked at.
      have ahead : ∀ context : ParsingContext, context.atPunctuation .openBracket = true →
          context.cursor.peek 1 = context.advance.current := by
        intro context found
        have kind : context.cursor.current.kind = .punctuation .openBracket := eq_of_beq found
        apply Cursor.peek_next
        · apply Cursor.inside_of_going
          rw [kind]
          nofun
        · rw [Cursor.atEnd, kind]
          rfl
        · rw [kind]
          rfl
      have kind : start.context.current.kind = .punctuation .openBracket := eq_of_beq opens
      have advanced := coupling.advanced paired.contexts (by rw [kind]; rfl)
      have behind := paired.moved advanced
      rw [opening, ahead _ opens, ahead _ opening]
      have closing : (other.context.advance.current.kind == .punctuation .closeBracket) =
          (start.context.advance.current.kind == .punctuation .closeBracket) :=
        behind.at_punctuation .closeBracket
      have comma : (other.context.advance.current.kind == .punctuation .comma) =
          (start.context.advance.current.kind == .punctuation .comma) :=
        behind.at_punctuation .comma
      dsimp only
      rw [closing, comma]

theorem together_commas (budget bound : Nat) (paired : coupling.Paired depth start other) :
    Together (commas budget) (commas bound) start other fun count final amount last =>
      amount = count ∧ coupling.Paired depth final last := by
  induction budget generalizing bound start other with
  | zero => exact together_throw_left _
  | succ budget ih =>
      cases bound with
      | zero => exact together_throw_right _
      | succ bound =>
          unfold commas
          rw [together_bind]
          apply together_accept paired
          · intro next after paired
            rw [if_pos rfl, if_pos rfl, together_bind]
            apply (ih bound paired).weaken
            rintro count final _ last ⟨rfl, paired⟩
            exact (together_pure _ _).mpr ⟨rfl, paired⟩
          · exact (together_pure _ _).mpr ⟨rfl, paired⟩

/-- A span between places that belong together, if there is one. -/
theorem together_for_report {lower upper : Position} {rows : Nat}
    {holds : Span → ParserState → Span → ParserState → Prop}
    (met : ∀ span, holds span start (span.lowered rows) other) :
    Together (SourceTree.ofExcept (Span.forReport lower upper))
      (SourceTree.ofExcept (Span.forReport (lower.lowered rows) (upper.lowered rows))) start other
      holds := by
  unfold Span.forReport Span.ofEnds?
  by_cases order : lower ≤ upper
  · have below : lower.lowered rows ≤ upper.lowered rows := Position.lowered_le_iff.mpr order
    simp only [order, below, dite_true]
    exact (together_pure _ _).mpr (met ⟨lower, upper, order⟩)
  · simp only [order, dite_false]
    exact together_throw_left _

theorem together_rank_suffixes (budget bound : Nat) (ranks : List Nat)
    (paired : coupling.Paired depth start other) :
    Together (rankSuffixes budget ranks) (rankSuffixes bound ranks) start other
      (coupling.Agrees Eq depth) := by
  induction budget generalizing bound ranks start other with
  | zero => exact together_throw_left _
  | succ budget ih =>
      cases bound with
      | zero => exact together_throw_right _
      | succ bound =>
          unfold rankSuffixes
          rw [together_bind, together_context, at_rank_suffix paired]
          by_cases suffix : atRankSuffix start.context = true
          · have kind : start.context.current.kind = .punctuation .openBracket := by
              simp [atRankSuffix, ParsingContext.atPunctuation] at suffix
              exact suffix.1
            simp only [suffix, Bool.not_true, Bool.false_eq_true, if_false]
            rw [together_bind, together_current, together_bind]
            apply together_advance paired (by rw [kind]; rfl)
            intro opened after inner
            rw [kind] at inner
            rw [together_bind, together_remaining, together_bind]
            apply (together_commas _ _ inner).weaken
            rintro count counted _ reckoned ⟨rfl, inner⟩
            rw [together_bind]
            apply together_accept inner
            · intro closed shut inner
              have passed : shut.passed = closed.passed.lowered coupling.rows :=
                coupling.ends inner.contexts
              rw [Bool.not_true, if_neg Bool.false_ne_true, if_neg Bool.false_ne_true]
              split
              · rw [together_bind, together_previous_end, together_bind,
                  coupling.starts paired.contexts, passed]
                apply together_for_report
                intro span
                rw [together_bind]
                apply together_report inner
                intro final last paired
                exact together_none paired
              · exact ih bound _ inner
            · rw [Bool.not_false, if_pos rfl, if_pos rfl]
              exact together_missing inner
          · simp only [suffix, Bool.not_false, if_true]
            exact together_some rfl paired

theorem together_type (paired : coupling.Paired depth start other) :
    Together type type start other (coupling.Agrees coupling.Partner depth) := by
  unfold type
  rw [together_bind, together_current, together_bind]
  apply together_word paired
  · intro name named called inner
    rw [together_bind, together_remaining]
    refine together_then (together_rank_suffixes _ _ [] inner) rfl rfl ?_
    rintro ranks _ final last rfl inner
    exact together_made inner rfl (coupling.starts paired.contexts)
  · exact together_missing paired

theorem together_names_builtin (node : NodeId)
    {holds : Bool → ParserState → Bool → ParserState → Prop}
    (paired : coupling.Paired depth start other)
    (met : ∀ found, holds found start found other) :
    Together (namesBuiltin node) (namesBuiltin (node.raised coupling.ids)) start other holds := by
  unfold namesBuiltin
  rw [together_bind, together_kind, coupling.kind paired.trees]
  cases start.tree.arena.kind? node with
  | none => exact (together_pure _ _).mpr (met false)
  | some kind =>
      cases kind <;> exact (together_pure _ _).mpr (met _)

end ModuleLang.Parser

/-!
Expressions in two runs of the parser. Where a line end is skipped inside an expression, a
parenthesis is open or an operator waits, so that neither run comes to the end of its file
there: both go on in step, whatever the second file holds behind.
-/

namespace ModuleLang

/-- Two productions that go on in step from states that belong together. -/
def Coupling.Couples (coupling : Coupling) {value image : Type} (related : value → image → Prop)
    (production : Parser (Option value)) (twin : Parser (Option image)) : Prop :=
  ∀ depth start other, coupling.Paired depth start other →
    Together production twin start other (coupling.Agrees related depth)

namespace Parser

open ParserState

variable {coupling : Coupling} {depth : Nat} {start other : ParserState}

/-- A binary operator is read from one with a binding power. -/
theorem power_of_tighter {minimum power : Nat} {kind : TokenKind} {operator : BinaryOperator}
    (found : tighter? minimum kind = some (operator, power)) :
    ∃ spelt : Operator, kind = .operator spelt ∧ spelt.bindingPower?.isSome = true := by
  cases kind with
  | operator spelling =>
      rcases Option.bind_eq_some_iff.mp found with ⟨bound, same, -⟩
      exact ⟨spelling, rfl, Option.isSome_iff_exists.mpr ⟨bound, same⟩⟩
  | _ => cases found

section Productions

variable {expression twin : (minimum : Nat) → Parser (Option NodeId)}
  (couples : ∀ minimum, coupling.Couples coupling.Partner (expression minimum) (twin minimum))

include couples

theorem together_arguments_from (budget bound : Nat) {arguments others : List NodeId}
    (partners : coupling.Partners arguments others)
    (paired : coupling.Paired (depth + 1) start other) :
    Together (argumentsFrom expression budget arguments) (argumentsFrom twin bound others) start
      other (coupling.Agrees coupling.Partners depth) := by
  induction budget generalizing bound start other arguments others with
  | zero => exact together_throw_left _
  | succ budget ih =>
      cases bound with
      | zero => exact together_throw_right _
      | succ bound =>
          unfold argumentsFrom
          refine together_then (couples 0 _ _ _ paired) rfl rfl ?_
          intro argument partner read seen same paired
          have partners : coupling.Partners (arguments ++ [argument]) (others ++ [partner]) :=
            partners.concat same
          rw [together_bind]
          apply together_grouped paired rfl
          intro skipped passed paired
          rw [together_bind]
          apply together_accept paired
          · intro behind after paired
            rw [if_pos rfl, if_pos rfl, together_bind]
            apply together_grouped paired rfl
            intro next then' paired
            exact ih bound partners paired
          · rw [if_neg Bool.false_ne_true, if_neg Bool.false_ne_true, together_bind]
            apply together_expect paired ⟨Nat.le_refl _, Nat.le_succ _⟩
            intro final last paired
            exact together_some partners paired

theorem together_arguments : coupling.Couples coupling.Partners (arguments expression)
    (arguments twin) := by
  intro depth start other paired
  unfold arguments
  rw [together_bind]
  apply together_accept paired
  · intro opened entered paired
    rw [Bool.not_true, if_neg Bool.false_ne_true, if_neg Bool.false_ne_true, together_bind]
    apply together_grouped paired rfl
    intro skipped passed paired
    rw [together_bind]
    apply together_accept paired
    · intro final last paired
      rw [if_pos rfl, if_pos rfl]
      exact together_some rfl paired
    · rw [if_neg Bool.false_ne_true, if_neg Bool.false_ne_true, together_bind, together_remaining]
      exact together_arguments_from couples _ _ rfl paired
  · rw [Bool.not_false, if_pos rfl, if_pos rfl]
    exact together_missing paired

theorem together_construction (begins : start.context.current.kind = .keyword .newWord)
    (paired : coupling.Paired depth start other) :
    Together (construction expression) (construction twin) start other
      (coupling.Agrees coupling.Partner depth) := by
  have starts := coupling.starts paired.contexts
  unfold construction
  rw [together_bind, together_current, together_bind]
  apply together_advance paired (by rw [begins]; rfl)
  intro opened entered paired
  rw [begins] at paired
  have typeStarts := coupling.starts paired.contexts
  rw [together_bind, together_current, together_bind]
  apply together_word paired
  · intro name named called paired
    rw [together_bind]
    apply together_finish paired rfl typeStarts
    intro type typed written paired
    rw [together_bind]
    apply together_accept paired
    · intro bracket behind paired
      rw [if_pos rfl, if_pos rfl]
      refine together_then (couples 0 _ _ _ paired) rfl rfl ?_
      intro length partner read seen same paired
      rw [together_bind]
      have paired : coupling.Paired depth read seen := paired
      apply together_expect paired ⟨Nat.le_refl _, Nat.le_refl _⟩
      intro closed shut paired
      exact together_made paired (by rw [same]; rfl) starts
    · rw [if_neg Bool.false_ne_true, if_neg Bool.false_ne_true]
      refine together_then (together_arguments couples _ _ _ paired) rfl rfl ?_
      intro arguments others read seen same paired
      exact together_made paired (by rw [same]; rfl) starts
  · exact together_missing paired

theorem together_cast (begins : start.context.current.kind = .punctuation .openParen)
    (paired : coupling.Paired depth start other) :
    Together (cast expression) (cast twin) start other
      (coupling.Agrees coupling.Partner depth) := by
  have starts := coupling.starts paired.contexts
  unfold cast
  rw [together_bind, together_current, together_bind]
  apply together_advance paired (by rw [begins]; rfl)
  intro opened entered paired
  rw [begins] at paired
  refine together_then (together_type paired) rfl rfl ?_
  rintro target _ read seen rfl paired
  rw [together_bind]
  apply together_accept paired
  · intro closed shut paired
    rw [Bool.not_true, if_neg Bool.false_ne_true, if_neg Bool.false_ne_true, together_bind]
    apply together_names_builtin target paired
    intro builtin
    rw [together_bind, together_current,
      @Coupling.Paired.same_test _ _ _ _ _ beginsOperand paired rfl]
    split
    · exact together_none paired
    · refine together_then (couples _ _ _ _ paired) rfl rfl ?_
      rintro inner _ final last rfl paired
      exact together_made paired rfl starts
  · rw [Bool.not_false, if_pos rfl, if_pos rfl]
    exact together_none paired

theorem together_parenthesized (begins : start.context.current.kind = .punctuation .openParen)
    (paired : coupling.Paired depth start other) :
    Together (parenthesized expression) (parenthesized twin) start other
      (coupling.Agrees coupling.Partner depth) := by
  unfold parenthesized
  rw [together_bind]
  apply together_advance paired (by rw [begins]; rfl)
  intro opened entered paired
  rw [begins] at paired
  rw [together_bind]
  apply together_grouped paired rfl
  intro skipped passed paired
  refine together_then (couples 0 _ _ _ paired) rfl rfl ?_
  intro inner partner read seen same paired
  rw [together_bind]
  apply together_grouped paired rfl
  intro behind after paired
  rw [together_bind]
  apply together_expect paired ⟨Nat.le_refl _, Nat.le_succ _⟩
  intro final last paired
  exact together_some same paired

theorem together_operand : coupling.Couples coupling.Partner (operand expression)
    (operand twin) := by
  intro depth start other paired
  have starts := coupling.starts paired.contexts
  unfold operand
  rw [together_bind, together_current]
  rcases paired.alike with same | ⟨file, row⟩
  · dsimp only
    rw [← same]
    split
    · rename_i value kind
      rw [together_bind]
      apply together_advance paired (by rw [kind]; rfl)
      intro read seen paired
      rw [kind] at paired
      exact together_made paired rfl starts
    · rename_i name kind
      rw [together_bind]
      apply together_advance paired (by rw [kind]; rfl)
      intro read seen paired
      rw [kind] at paired
      rw [together_bind, together_context, paired.at_punctuation]
      split
      · refine together_then (together_arguments couples _ _ _ paired) rfl rfl ?_
        rintro arguments _ final last rfl paired
        exact together_made paired rfl starts
      · exact together_made paired rfl starts
    · rename_i kind
      exact together_construction couples kind paired
    · rename_i spelt kind
      split
      · rw [together_bind]
        apply together_advance paired (by rw [kind]; rfl)
        intro read seen paired
        rw [kind] at paired
        refine together_then (couples _ _ _ _ paired) rfl rfl ?_
        rintro inner _ final last rfl paired
        exact together_made paired rfl starts
      · exact together_missing paired
    · rename_i kind
      rw [together_bind]
      apply together_attempt paired (together_cast couples kind paired.forked)
      · rintro found _ final last rfl paired
        exact together_some rfl paired
      · intro final last stayed paired
        rw [← stayed] at kind
        exact together_parenthesized couples kind paired
    · exact together_missing paired
  · simp only [file, row]
    exact together_missing paired

theorem together_trailing (budget bound : Nat) {target partner : NodeId} {lower upper : Position}
    (same : coupling.Partner target partner) (starts : upper = lower.lowered coupling.rows)
    (paired : coupling.Paired depth start other) :
    Together (trailing expression budget lower target) (trailing twin bound upper partner) start
      other (coupling.Agrees coupling.Partner depth) := by
  induction budget generalizing bound start other target partner with
  | zero => exact together_throw_left _
  | succ budget ih =>
      cases bound with
      | zero => exact together_throw_right _
      | succ bound =>
          cases same
          unfold trailing
          rw [together_bind, together_current]
          rcases paired.alike with equal | ⟨file, row⟩
          · rw [← equal]
            split
            · rename_i kind
              rw [together_bind]
              apply together_advance paired (by rw [kind]; rfl)
              intro read seen paired
              rw [kind] at paired
              rw [together_bind]
              apply together_word paired
              · intro name named called paired
                rw [together_bind]
                apply together_finish paired rfl starts
                intro node final last paired
                exact ih bound rfl paired
              · exact together_missing paired
            · rename_i kind
              rw [together_bind]
              apply together_advance paired (by rw [kind]; rfl)
              intro read seen paired
              rw [kind] at paired
              refine together_then (couples 0 _ _ _ paired) rfl rfl ?_
              rintro index _ closed shut rfl paired
              have paired : coupling.Paired depth closed shut := paired
              rw [together_bind]
              apply together_expect paired ⟨Nat.le_refl _, Nat.le_refl _⟩
              intro behind after paired
              rw [together_bind]
              apply together_finish paired rfl starts
              intro node final last paired
              exact ih bound rfl paired
            · rename_i spelt kind
              split
              · rw [together_bind]
                apply together_advance paired (by rw [kind]; rfl)
                intro read seen paired
                rw [kind] at paired
                rw [together_bind]
                apply together_finish paired rfl starts
                intro node final last paired
                exact ih bound rfl paired
              · exact together_some rfl paired
            · exact together_some rfl paired
          · simp only [file, row]
            exact together_some rfl paired

theorem together_binaries (minimum budget bound : Nat) {left partner : NodeId}
    {lower upper : Position} (same : coupling.Partner left partner)
    (starts : upper = lower.lowered coupling.rows) (paired : coupling.Paired depth start other) :
    Together (binaries expression minimum budget lower left)
      (binaries twin minimum bound upper partner) start other
      (coupling.Agrees coupling.Partner depth) := by
  induction budget generalizing bound start other left partner with
  | zero => exact together_throw_left _
  | succ budget ih =>
      cases bound with
      | zero => exact together_throw_right _
      | succ bound =>
          cases same
          unfold binaries
          rw [together_bind, together_current,
            @Coupling.Paired.same_test _ _ _ _ _ (tighter? minimum) paired rfl]
          cases found : tighter? minimum start.context.current.kind with
          | none => exact together_some rfl paired
          | some pair =>
              rcases pair with ⟨operator, power⟩
              rcases power_of_tighter found with ⟨spelt, kind, waits⟩
              rw [together_bind]
              unfold advance
              rw [together_move, together_bind]
              unfold skipLines
              rw [together_move]
              have paired := paired.moved (coupling.waited paired.contexts kind waits)
              refine together_then (couples power _ _ _ paired) rfl rfl ?_
              rintro right _ read seen rfl paired
              rw [together_bind]
              apply together_finish paired rfl starts
              intro node final last paired
              exact ih bound rfl paired

theorem together_operation (minimum : Nat) : coupling.Couples coupling.Partner
    (operation expression minimum) (operation twin minimum) := by
  intro depth start other paired
  have starts := coupling.starts paired.contexts
  unfold operation
  rw [together_bind, together_current]
  refine together_then (together_operand couples _ _ _ paired) rfl rfl ?_
  intro first partner read seen same paired
  rw [together_bind, together_remaining]
  refine together_then (together_trailing couples _ _ same starts paired) rfl rfl ?_
  intro left again behind after same paired
  rw [together_bind, together_remaining]
  exact together_binaries couples minimum _ _ same starts paired

end Productions

theorem together_expression_within (budget bound minimum : Nat) :
    coupling.Couples coupling.Partner (expressionWithin budget minimum)
      (expressionWithin bound minimum) := by
  induction budget generalizing bound minimum with
  | zero =>
      intro depth start other paired
      exact together_throw_left _
  | succ budget ih =>
      cases bound with
      | zero =>
          intro depth start other paired
          exact together_throw_right _
      | succ bound => exact together_operation (ih bound) minimum

theorem together_expression (minimum : Nat) :
    coupling.Couples coupling.Partner (expression minimum) (expression minimum) := by
  intro depth start other paired
  unfold expression
  rw [together_bind, together_remaining]
  exact together_expression_within _ _ minimum _ _ _ paired

end Parser

end ModuleLang
