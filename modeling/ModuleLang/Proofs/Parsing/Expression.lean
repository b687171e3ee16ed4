import ModuleLang.Parsing.Expression
import ModuleLang.Parsing.Type
import ModuleLang.Proofs.Parsing.Progress

/-!
Written types. A type that cannot be read is always reported, and what is read of
it is at least its name.
-/

namespace ModuleLang.Parser

open ParserState

variable {limit : Position}

theorem yields_commas {budget : Nat} {start : ParserState} (sound : start.Sound limit)
    (enough : start.remaining ≤ budget) :
    Yields (commas budget) start fun _ final => start.Reaches limit final := by
  induction budget generalizing start with
  | zero =>
      have positive := remaining_pos sound
      omega
  | succ budget ih =>
      unfold commas
      rw [yields_bind]
      refine yields_accept sound ?_ (.refl sound)
      intro after moved ahead _
      have rest := ih moved.sound (remaining_of_reaches moved ahead enough)
      exact (yields_bind _ _ _ _).mpr (rest.weaken fun _ final later => moved.trans later)

theorem yields_rank_suffixes {budget : Nat} {ranks : List Nat} {start : ParserState}
    (sound : start.Sound limit) (enough : start.remaining ≤ budget) :
    Yields (rankSuffixes budget ranks) start fun result final =>
      start.Reaches limit final ∧ (result = none →
        start.context.diagnostics.length < final.context.diagnostics.length) := by
  induction budget generalizing start ranks with
  | zero =>
      have positive := remaining_pos sound
      omega
  | succ budget ih =>
      unfold rankSuffixes
      rw [yields_bind, yields_context]
      by_cases suffix : atRankSuffix start.context = true
      · have kind : start.context.current.kind = .punctuation .openBracket := by
          simp [atRankSuffix, ParsingContext.atPunctuation] at suffix
          exact suffix.1
        simp only [suffix, Bool.not_true, Bool.false_eq_true, if_false]
        rw [yields_bind, yields_current, yields_bind]
        refine yields_advance sound fun opened moved ahead _ _ => ?_
        have ahead := ahead (by simp [kind])
        rw [yields_bind, yields_remaining, yields_bind]
        refine (yields_commas moved.sound (Nat.le_refl _)).weaken fun count counted later => ?_
        have reached := moved.trans later
        rw [yields_bind]
        refine yields_accept later.sound ?_ ?_
        · intro closed further next _
          have whole := reached.trans further
          have beyond : start.position < closed.position :=
            Nat.lt_of_lt_of_le ahead (later.trans further).position
          rw [Bool.not_true, if_neg Bool.false_ne_true]
          split
          · -- The opening bracket was moved past, so the span of the report is in order.
            have order : start.here ≤ closed.passed :=
              Position.le_of_lt (here_lt_passed whole beyond (by simp [kind])
                (by simp [Token.isTrivia, kind, TokenKind.isTrivia]))
            have found : Span.forReport start.here closed.passed =
                .ok ⟨start.here, closed.passed, order⟩ := by
              simp [Span.forReport, Span.ofEnds?, order]
            rw [yields_bind, yields_previous_end, yields_bind, SourceTree.yields_of_except]
            refine ⟨_, found, ?_⟩
            rw [yields_bind]
            refine yields_report whole.sound (passed_le_limit whole.sound) ?_
            intro final last more
            exact ⟨whole.trans last, fun _ => Nat.lt_of_le_of_lt whole.length more⟩
          · have enough := remaining_of_reaches whole beyond enough
            refine (ih whole.sound enough).weaken ?_
            rintro result final ⟨last, reported⟩
            exact ⟨whole.trans last, fun failed => Nat.lt_of_le_of_lt whole.length (reported failed)⟩
        · rw [Bool.not_false, if_pos rfl, yields_bind]
          refine yields_report_here later.sound fun final last more => ?_
          exact ⟨reached.trans last, fun _ => Nat.lt_of_le_of_lt reached.length more⟩
      · simp only [suffix, Bool.not_false, if_true]
        exact ⟨.refl sound, by simp⟩

theorem parses_type {start : ParserState} (sound : start.Sound limit) :
    Parses limit .type True start.here type start := by
  unfold Parses type
  rw [yields_bind, yields_current, yields_bind]
  refine yields_word sound ?_ (parsed_missing (.refl sound))
  intro name named moved ahead passed
  rw [yields_bind, yields_remaining, yields_bind]
  refine (yields_rank_suffixes moved.sound (Nat.le_refl _)).weaken ?_
  rintro result final ⟨later, reported⟩
  cases result with
  | none =>
      refine parsed_none (moved.trans later) fun _ => ?_
      exact Nat.lt_of_le_of_lt moved.length (reported rfl)
  | some ranks => exact parsed_finish _ ((Underway.begin moved ahead passed).later later) rfl rfl

theorem yields_names_builtin (node : NodeId) (start : ParserState)
    {holds : Bool → ParserState → Prop} (met : ∀ found, holds found start) :
    Yields (namesBuiltin node) start holds := by
  unfold namesBuiltin
  rw [yields_bind, yields_kind]
  split
  · exact met _
  · exact met _

end ModuleLang.Parser

/-!
Expressions. A nested expression begins behind a token that was moved past, so
the budget that is left for it is enough. The loops behind an operand carry the
node that they extend from where the operand began, which is the origin of what
is held.
-/

namespace ModuleLang.Parser

open ParserState

/-- The production for nested expressions runs from every state with few enough
tokens left. -/
def ParsesExpressions (limit : Position) (bound : Nat)
    (expression : (minimum : Nat) → Parser (Option NodeId)) : Prop :=
  ∀ minimum state, state.Sound limit → state.remaining ≤ bound →
    Parses limit .expression True state.here (expression minimum) state

/-- Slots of a list of expressions. -/
def expressionSlots (nodes : List NodeId) : List (Category × NodeId) :=
  nodes.map (Prod.mk .expression)

section Productions

variable {limit : Position} {bound : Nat} {expression : (minimum : Nat) → Parser (Option NodeId)}
  (nested : ParsesExpressions limit bound expression)

include nested

theorem parses_arguments_from {budget : Nat} {found : List NodeId} {lower : Position}
    {slots : List (Category × NodeId)} {origin start : ParserState}
    (under : Underway limit lower (slots ++ expressionSlots found) origin start)
    (enough : start.remaining ≤ budget) (within : start.remaining ≤ bound) :
    Yields (argumentsFrom expression budget found) start
      (Parsed limit True lower (fun all => slots ++ expressionSlots all) origin) := by
  induction budget generalizing start found with
  | zero =>
      have positive := remaining_pos under.sound
      omega
  | succ budget ih =>
      unfold argumentsFrom
      rw [yields_bind]
      refine (nested 0 start under.sound within).weaken fun result read parsed => ?_
      cases result with
      | none => exact parsed.failed under.reached
      | some argument =>
          have joined : Underway limit lower (slots ++ expressionSlots (found ++ [argument]))
              origin read := by
            simpa [expressionSlots] using parsed.joined under
          have further := (parsed.made argument rfl).ahead
          rw [yields_bind]
          refine yields_skip_lines joined.sound fun skipped moved => ?_
          rw [yields_bind]
          refine yields_accept moved.sound ?_ ?_
          · intro behind comma _ _
            rw [if_pos rfl, yields_bind]
            refine yields_skip_lines comma.sound fun next last => ?_
            have tail := moved.trans (comma.trans last)
            have whole := parsed.reached.trans tail
            exact ih (joined.later tail)
              (remaining_of_reaches whole (Nat.lt_of_lt_of_le further tail.position) enough)
              (Nat.le_trans (remaining_mono whole) within)
          · rw [if_neg Bool.false_ne_true, yields_bind]
            refine yields_expect moved.sound fun final closed => ?_
            exact parsed_some _ (joined.later (moved.trans closed))

theorem parses_arguments {lower : Position} {slots : List (Category × NodeId)}
    {origin start : ParserState} (under : Underway limit lower slots origin start)
    (within : start.remaining ≤ bound) :
    Yields (arguments expression) start
      (Parsed limit True lower (fun all => slots ++ expressionSlots all) origin) := by
  unfold arguments
  rw [yields_bind]
  refine yields_accept under.sound ?_ (parsed_missing under.reached)
  intro opened moved _ _
  rw [Bool.not_true, if_neg Bool.false_ne_true, yields_bind]
  refine yields_skip_lines moved.sound fun skipped inside => ?_
  have reached := moved.trans inside
  have empty : Underway limit lower (slots ++ expressionSlots []) origin skipped := by
    simpa [expressionSlots] using under.later reached
  rw [yields_bind]
  refine yields_accept inside.sound ?_ ?_
  · intro final closed _ _
    exact parsed_some _ (empty.later closed)
  · rw [if_neg Bool.false_ne_true, yields_bind, yields_remaining]
    exact parses_arguments_from nested empty (Nat.le_refl _)
      (Nat.le_trans (remaining_mono reached) within)

theorem parses_construction {start : ParserState} (sound : start.Sound limit)
    (keyword : start.context.current.kind = .keyword .newWord)
    (within : start.remaining ≤ bound + 1) :
    Parses limit .expression True start.here (construction expression) start := by
  unfold Parses construction
  rw [yields_bind, yields_current, yields_bind]
  refine yields_begin sound (by simp [keyword])
    (by simp [Token.isTrivia, keyword, TokenKind.isTrivia]) fun next under => ?_
  rw [yields_bind, yields_current, yields_bind]
  refine yields_word under.sound ?_ (parsed_missing under.reached)
  intro name named further beyond passed
  rw [yields_bind]
  refine yields_finish _ (Underway.begin further beyond passed) rfl fun type typed _ _ made => ?_
  have named := made .type rfl
  have under := under.append named.reached named.held (passed_le_here under.sound)
  have within : typed.remaining ≤ bound := under.remaining within
  rw [yields_bind]
  refine yields_accept under.sound ?_ ?_
  · intro opened bracket _ _
    rw [if_pos rfl, yields_bind]
    have under := under.later bracket
    refine (nested 0 opened under.sound
      (Nat.le_trans (remaining_mono bracket) within)).weaken fun result read parsed => ?_
    cases result with
    | none => exact parsed.failed under.reached
    | some length =>
        have joined := parsed.joined under
        rw [yields_bind]
        refine yields_expect joined.sound fun closed last => ?_
        exact parsed_finish _ (joined.later last) rfl rfl
  · rw [if_neg Bool.false_ne_true, yields_bind]
    refine (parses_arguments nested under within).weaken fun result final parsed => ?_
    cases result with
    | none => exact parsed.failed (.refl sound)
    | some found => exact parsed_finish _ (parsed.made found rfl) rfl rfl

theorem parses_cast {start : ParserState} (sound : start.Sound limit)
    (opening : start.context.current.kind = .punctuation .openParen)
    (within : start.remaining ≤ bound + 1) :
    Parses limit .expression False start.here (cast expression) start := by
  unfold Parses cast
  rw [yields_bind, yields_current, yields_bind]
  refine yields_begin sound (by simp [opening])
    (by simp [Token.isTrivia, opening, TokenKind.isTrivia]) fun next under => ?_
  rw [yields_bind]
  refine (parses_type under.sound).weaken fun result typed parsed => ?_
  cases result with
  | none => exact parsed_none (under.reached.trans parsed.reached) False.elim
  | some type =>
      have under := parsed.joined under
      rw [yields_bind]
      refine yields_accept under.sound ?_ (parsed_none under.reached False.elim)
      intro closed further _ _
      have under := under.later further
      rw [Bool.not_true, if_neg Bool.false_ne_true, yields_bind]
      refine yields_names_builtin type closed fun builtin => ?_
      rw [yields_bind, yields_current]
      split
      · exact parsed_none under.reached False.elim
      · rw [yields_bind]
        refine (nested Operator.leadingPower closed under.sound
          (under.remaining within)).weaken fun result read parsed => ?_
        cases result with
        | none => exact parsed_none (under.reached.trans parsed.reached) False.elim
        | some inner => exact parsed_finish _ (parsed.joined under) rfl rfl

theorem parses_parenthesized {start : ParserState} (sound : start.Sound limit)
    (opening : start.context.current.kind = .punctuation .openParen)
    (within : start.remaining ≤ bound + 1) :
    Parses limit .expression True start.here (parenthesized expression) start := by
  unfold Parses parenthesized
  rw [yields_bind]
  refine yields_begin sound (by simp [opening])
    (by simp [Token.isTrivia, opening, TokenKind.isTrivia]) fun next under => ?_
  rw [yields_bind]
  refine yields_skip_lines under.sound fun skipped inside => ?_
  have under := under.later inside
  rw [yields_bind]
  refine (nested 0 skipped under.sound (under.remaining within)).weaken
    fun result read parsed => ?_
  cases result with
  | none => exact parsed.failed under.reached
  | some inner =>
      have joined := parsed.joined under
      rw [yields_bind]
      refine yields_skip_lines joined.sound fun behind last => ?_
      rw [yields_bind]
      refine yields_expect last.sound fun final closed => ?_
      exact parsed_some _ (joined.later (last.trans closed))

theorem parses_operand {start : ParserState} (sound : start.Sound limit)
    (within : start.remaining ≤ bound + 1) :
    Parses limit .expression True start.here (operand expression) start := by
  unfold Parses operand
  rw [yields_bind, yields_current]
  split
  · rename_i value kind
    rw [yields_bind]
    refine yields_begin sound (by simp [kind])
      (by simp [Token.isTrivia, kind, TokenKind.isTrivia]) fun next under => ?_
    exact parsed_finish _ under rfl rfl
  · rename_i name kind
    rw [yields_bind]
    refine yields_begin sound (by simp [kind])
      (by simp [Token.isTrivia, kind, TokenKind.isTrivia]) fun next under => ?_
    rw [yields_bind, yields_context]
    split
    · rw [yields_bind]
      refine (parses_arguments nested under (under.remaining within)).weaken
        fun result final parsed => ?_
      cases result with
      | none => exact parsed.failed (.refl sound)
      | some found => exact parsed_finish _ (parsed.made found rfl) rfl rfl
    · exact parsed_finish _ under rfl rfl
  · rename_i kind
    exact parses_construction nested sound kind within
  · rename_i spelt kind
    split
    · rename_i operator _
      rw [yields_bind]
      refine yields_begin sound (by simp [kind])
        (by simp [Token.isTrivia, kind, TokenKind.isTrivia]) fun next under => ?_
      rw [yields_bind]
      refine (nested Operator.leadingPower next under.sound (under.remaining within)).weaken
        fun result read parsed => ?_
      cases result with
      | none => exact parsed.failed under.reached
      | some inner => exact parsed_finish _ (parsed.joined under) rfl rfl
    · exact parsed_missing (.refl sound)
  · rename_i kind
    rw [yields_bind]
    have tried := parsed_attempt sound
      (parses_cast nested (sound_fork sound) kind within)
    refine tried.weaken ?_
    rintro result after ⟨parsed, dropped⟩
    cases result with
    | some node => exact parsed_some _ (parsed.made node rfl)
    | none =>
        have same := dropped rfl
        have next := parses_parenthesized nested parsed.reached.sound (by rw [same]; exact kind)
          (Nat.le_trans (remaining_mono parsed.reached) within)
        refine next.weaken fun result final last => last.since parsed.reached ?_
        unfold here
        rw [same]
        exact Position.le_refl _
  · exact parsed_missing (.refl sound)

theorem parses_trailing {budget : Nat} {lower : Position} {target : NodeId}
    {origin start : ParserState}
    (under : Underway limit lower [(.expression, target)] origin start)
    (enough : start.remaining ≤ budget) (within : start.remaining ≤ bound + 1) :
    Yields (trailing expression budget lower target) start
      (Parsed limit True lower (fun node => [(.expression, node)]) origin) := by
  induction budget generalizing start target with
  | zero =>
      have positive := remaining_pos under.sound
      omega
  | succ budget ih =>
      unfold trailing
      rw [yields_bind, yields_current]
      -- The loop goes on behind a new node, with less room than before.
      have again : ∀ {last behind : ParserState} {node : NodeId}, start.Reaches limit last →
          start.position < last.position → behind.context = last.context →
          Underway limit lower [(.expression, node)] origin behind →
          Yields (trailing expression budget lower node) behind
            (Parsed limit True lower (fun node => [(.expression, node)]) origin) := by
        intro last behind node moved ahead same under
        have less := remaining_of_context same
        refine ih under ?_ ?_
        · rw [less]
          exact remaining_of_reaches moved ahead enough
        · rw [less]
          exact Nat.le_trans (remaining_mono moved) within
      split
      · rename_i kind
        rw [yields_bind]
        refine yields_advance under.sound fun next moved ahead _ _ => ?_
        have ahead := ahead (by simp [kind])
        rw [yields_bind]
        refine yields_word moved.sound ?_ (parsed_missing (under.later moved).reached)
        intro name named further beyond _
        rw [yields_bind]
        refine yields_finish _ (under.later (moved.trans further)) rfl
          fun node behind same _ made => ?_
        exact again (moved.trans further) (Nat.lt_trans ahead beyond) same
          (made .expression rfl)
      · rename_i kind
        rw [yields_bind]
        refine yields_advance under.sound fun next moved ahead _ _ => ?_
        have ahead := ahead (by simp [kind])
        rw [yields_bind]
        refine (nested 0 next moved.sound (remaining_of_reaches moved ahead within)).weaken
          fun result read parsed => ?_
        cases result with
        | none => exact parsed.failed (under.later moved).reached
        | some index =>
            have joined := parsed.joined (under.later moved)
            rw [yields_bind]
            refine yields_expect joined.sound fun last closed => ?_
            have whole := moved.trans (parsed.reached.trans closed)
            rw [yields_bind]
            refine yields_finish _ (joined.later closed) rfl fun node behind same _ made => ?_
            exact again whole
              (Nat.lt_of_lt_of_le ahead (parsed.reached.trans closed).position) same
              (made .expression rfl)
      · rename_i spelt kind
        split
        · rw [yields_bind]
          refine yields_advance under.sound fun next moved ahead _ _ => ?_
          have ahead := ahead (by simp [kind])
          rw [yields_bind]
          refine yields_finish _ (under.later moved) rfl fun node behind same _ made => ?_
          exact again moved ahead same (made .expression rfl)
        · exact parsed_some _ under
      · exact parsed_some _ under

theorem parses_binaries {minimum budget : Nat} {lower : Position} {left : NodeId}
    {origin start : ParserState}
    (under : Underway limit lower [(.expression, left)] origin start)
    (enough : start.remaining ≤ budget) (within : start.remaining ≤ bound + 1) :
    Yields (binaries expression minimum budget lower left) start
      (Parsed limit True lower (fun node => [(.expression, node)]) origin) := by
  induction budget generalizing start left with
  | zero =>
      have positive := remaining_pos under.sound
      omega
  | succ budget ih =>
      unfold binaries
      rw [yields_bind, yields_current]
      split
      · exact parsed_some _ under
      · rename_i operator power tight
        have going : start.context.current.kind ≠ .endOfFile := by
          intro last
          rw [last] at tight
          cases tight
        rw [yields_bind]
        refine yields_advance under.sound fun next moved ahead _ _ => ?_
        have ahead := ahead going
        rw [yields_bind]
        refine yields_skip_lines moved.sound fun skipped further => ?_
        have moved := moved.trans further
        have ahead := Nat.lt_of_lt_of_le ahead further.position
        rw [yields_bind]
        refine (nested power skipped moved.sound (remaining_of_reaches moved ahead within)).weaken
          fun result read parsed => ?_
        cases result with
        | none => exact parsed.failed (under.later moved).reached
        | some right =>
            have joined := parsed.joined (under.later moved)
            have whole := moved.trans parsed.reached
            have beyond := Nat.lt_of_lt_of_le ahead parsed.reached.position
            rw [yields_bind]
            refine yields_finish _ joined rfl fun node behind same _ made => ?_
            have less := remaining_of_context same
            refine ih (made .expression rfl) ?_ ?_
            · rw [less]
              exact remaining_of_reaches whole beyond enough
            · rw [less]
              exact Nat.le_trans (remaining_mono whole) within

theorem parses_operation {start : ParserState} (minimum : Nat) (sound : start.Sound limit)
    (within : start.remaining ≤ bound + 1) :
    Parses limit .expression True start.here (operation expression minimum) start := by
  unfold Parses operation
  rw [yields_bind, yields_current, yields_bind]
  refine (parses_operand nested sound within).weaken fun result read parsed => ?_
  cases result with
  | none => exact parsed.failed (.refl sound)
  | some first =>
      have under := parsed.made first rfl
      rw [yields_bind, yields_remaining, yields_bind]
      refine (parses_trailing nested under (Nat.le_refl _)
        (Nat.le_trans (remaining_mono parsed.reached) within)).weaken
        fun result behind parsed => ?_
      cases result with
      | none => exact parsed.failed (.refl sound)
      | some left =>
          have under := parsed.made left rfl
          rw [yields_bind, yields_remaining]
          exact parses_binaries nested under (Nat.le_refl _)
            (Nat.le_trans (remaining_mono parsed.reached) within)

end Productions

variable {limit : Position}

theorem parses_expression_within (budget : Nat) :
    ParsesExpressions limit budget (expressionWithin budget) := by
  induction budget with
  | zero =>
      intro minimum state sound enough
      have positive := remaining_pos sound
      omega
  | succ budget ih =>
      intro minimum state sound enough
      exact parses_operation ih minimum sound enough

theorem parses_expression (minimum : Nat) {start : ParserState} (sound : start.Sound limit) :
    Parses limit .expression True start.here (expression minimum) start := by
  unfold Parses expression
  rw [yields_bind, yields_remaining]
  exact parses_expression_within start.remaining minimum start sound (Nat.le_refl _)

end ModuleLang.Parser
