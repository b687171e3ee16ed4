import ModuleLang.Parsing.Expression
import ModuleLang.Parsing.Type
import ModuleLang.Proofs.Faithful.Passing

/-!
Written types are spelt with their name. What is behind it is made of brackets and commas,
which say nothing.
-/

namespace ModuleLang.Parser

open ParserState

variable {start : ParserState}

theorem ensures_commas (budget : Nat) (start : ParserState) :
    Ensures (commas budget) start fun _ final =>
      ∃ kinds, Silent kinds ∧ start.Passes kinds final := by
  induction budget generalizing start with
  | zero => exact ensures_throw _ _ _
  | succ budget ih =>
      unfold commas
      rw [ensures_bind]
      apply ensures_accept
      · intro next passes
        rw [if_pos rfl, ensures_bind]
        apply (ih next).weaken
        rintro count final ⟨kinds, silent, rest⟩
        apply (ensures_pure _ _ _).mpr
        exact ⟨_, (Silent.sign rfl).append silent, passes.trans rest⟩
      · apply (ensures_pure _ _ _).mpr
        exact ⟨[], .nil, .refl start⟩

theorem ensures_of_except {value : Type} {holds : value → ParserState → Prop}
    (found : Except InternalError value) (met : ∀ result, holds result start) :
    Ensures (SourceTree.ofExcept found) start holds := by
  cases found with
  | ok result => exact (ensures_pure _ _ _).mpr (met result)
  | error failure => exact ensures_throw _ _ _

theorem faithful_rank_suffixes (budget : Nat) (ranks : List Nat) :
    Faithful True (fun _ _ kinds => Silent kinds) (rankSuffixes budget ranks) := by
  induction budget generalizing ranks with
  | zero =>
      intro start
      exact ensures_throw _ _ _
  | succ budget ih =>
      intro start
      unfold rankSuffixes
      rw [ensures_bind, ensures_context]
      by_cases suffix : atRankSuffix start.context = true
      · have kind : start.context.current.kind = .punctuation .openBracket := by
          simp [atRankSuffix, ParsingContext.atPunctuation] at suffix
          exact suffix.1
        simp only [suffix, Bool.not_true, Bool.false_eq_true, if_false]
        rw [ensures_bind, ensures_current, ensures_bind]
        apply ensures_advance
        intro opened passes
        rw [kind] at passes
        rw [ensures_bind, ensures_remaining, ensures_bind]
        apply (ensures_commas _ opened).weaken
        rintro count counted ⟨between, silent, more⟩
        have passes := passes.trans more
        rw [ensures_bind]
        apply ensures_accept
        · intro closed more
          have passes := passes.trans more
          rw [Bool.not_true, if_neg Bool.false_ne_true]
          split
          · rw [ensures_bind, ensures_previous_end, ensures_bind]
            apply ensures_of_except
            intro span
            rw [ensures_bind]
            apply ensures_report
            intro final goes grows
            apply (ensures_pure _ _ _).mpr
            exact accounts_none (passes.goes.trans goes) fun _ => grows.before passes.goes
          · refine ensures_ends (ih _ closed) ?_ ?_
            · intro found rest final others more
              exact accounts_some (silent.bracketed.append others) (passes.trans more)
            · intro final goes grows
              exact accounts_none (passes.goes.trans goes) fun isLoud =>
                (grows isLoud).before passes.goes
        · rw [Bool.not_false, if_pos rfl]
          exact accounts_missing passes.goes
      · simp only [suffix, Bool.not_false, if_true]
        exact (ensures_pure _ _ _).mpr (accounts_some .nil (.refl start))

theorem faithful_type : Faithful True Arena.Spelt type := by
  intro start
  unfold type
  rw [ensures_bind, ensures_current, ensures_bind]
  apply ensures_word
  · intro name named passes
    rw [ensures_bind, ensures_remaining]
    refine accounts_then (faithful_rank_suffixes _ _ named) passes.goes id rfl ?_
    intro ranks kinds state silent more
    refine accounts_finish (passes.trans more) (.typeRef name ranks)
      (by simp [List.filter_cons, silent.unmarked]) ?_
    exact (Nesting.settles_plain rfl).append_neutral silent.neutral
  · exact accounts_missing (.refl start)

theorem ensures_names_builtin (node : NodeId) {holds : Bool → ParserState → Prop}
    (met : ∀ found, holds found start) : Ensures (namesBuiltin node) start holds := by
  unfold namesBuiltin
  rw [ensures_bind, ensures_kind]
  split
  · exact (ensures_pure _ _ _).mpr (met _)
  · exact (ensures_pure _ _ _).mpr (met _)

end ModuleLang.Parser

/-!
Expressions are spelt with what they are read from. What stands behind an operand is added
to what the operand was spelt with, so that the node which is returned last has it all.
-/

namespace ModuleLang

namespace UnaryOperator

theorem spelt_of_leading {spelling : Operator} {operator : UnaryOperator}
    (found : leading? spelling = some operator) :
    operator.isLeading = true ∧ operator.spelt = spelling := by
  cases spelling <;> cases found <;> exact ⟨rfl, rfl⟩

theorem spelt_of_trailing {spelling : Operator} {operator : UnaryOperator}
    (found : trailing? spelling = some operator) :
    operator.isLeading = false ∧ operator.spelt = spelling := by
  cases spelling <;> cases found <;> exact ⟨rfl, rfl⟩

theorem plain_of_trailing {spelling : Operator} {operator : UnaryOperator}
    (found : trailing? spelling = some operator) :
    Nesting.isPlain (.operator spelling) = true := by
  cases spelling <;> cases found <;> rfl

end UnaryOperator

theorem BinaryOperator.spelt_of_operator {spelling : Operator} {operator : BinaryOperator}
    (found : ofOperator? spelling = some operator) : operator.spelt = spelling := by
  cases spelling <;> cases found <;> rfl

namespace Parser

open ParserState Nesting

variable {start : ParserState}

/-- A binary operator is the token that it was read from. -/
theorem kind_of_tighter {minimum power : Nat} {kind : TokenKind} {operator : BinaryOperator}
    (found : tighter? minimum kind = some (operator, power)) : kind = .operator operator.spelt := by
  cases kind with
  | operator spelling =>
      rcases Option.bind_eq_some_iff.mp found with ⟨bound, -, found⟩
      split at found
      · cases found
      · rcases Option.bind_eq_some_iff.mp found with ⟨read, same, found⟩
        cases found
        rw [BinaryOperator.spelt_of_operator same]
  | _ => cases found

section Productions

variable {expression : (minimum : Nat) → Parser (Option NodeId)}
  (faithful : ∀ minimum, Faithful False Arena.Spelt (expression minimum))

include faithful

theorem ensures_arguments_from {budget : Nat} {arguments : List NodeId} {before : List TokenKind}
    (held : Arena.Lists Neutral start.tree.arena arguments before) :
    Ensures (argumentsFrom expression budget arguments) start
      (Accounts False (fun arena all kinds => Arena.Lists Closes arena all (before ++ kinds))
        start) := by
  induction budget generalizing start arguments before with
  | zero => exact ensures_throw _ _ _
  | succ budget ih =>
      unfold argumentsFrom
      refine accounts_then (faithful 0 start) (.refl start) id rfl ?_
      intro argument kinds read spelt passes
      have held := (held.later passes.goes.keeps).concat spelt
      rw [ensures_bind]
      apply ensures_skip_lines
      intro skipped more
      have held := held.later more.goes.keeps
      have passes := passes.on more
      rw [ensures_bind]
      apply ensures_accept
      · intro behind more
        have held := (held.later more.goes.keeps).separated .comma
        have passes := passes.trans more
        rw [if_pos rfl, ensures_bind]
        apply ensures_skip_lines
        intro next more
        have passes := passes.on more
        have held := held.later more.goes.keeps
        rw [List.append_assoc] at held
        apply (ih held).weaken
        intro result final accounts
        exact accounts.behind passes
      · rw [if_neg Bool.false_ne_true, ensures_bind]
        apply ensures_expect
        intro final more
        have held := (held.later more.goes.keeps).closed
        rw [List.append_assoc] at held
        apply (ensures_pure _ _ _).mpr
        exact accounts_some held (passes.trans more)

theorem faithful_arguments :
    Faithful False (Arena.Lists Settles) (arguments expression) := by
  intro start
  unfold arguments
  rw [ensures_bind]
  apply ensures_accept
  · intro opened passes
    rw [Bool.not_true, if_neg Bool.false_ne_true, ensures_bind]
    apply ensures_skip_lines
    intro skipped more
    have passes := passes.on more
    rw [ensures_bind]
    apply ensures_accept
    · intro final more
      rw [if_pos rfl]
      apply (ensures_pure _ _ _).mpr
      exact accounts_some (Arena.Lists.nil _).closed.grouped (passes.trans more)
    · rw [if_neg Bool.false_ne_true, ensures_bind, ensures_remaining]
      refine ensures_ends (ensures_arguments_from faithful (.nil _)) ?_ ?_
      · intro arguments kinds final lists more
        exact accounts_some lists.grouped (passes.trans more)
      · intro final goes _
        exact accounts_none (passes.goes.trans goes) False.elim
  · rw [Bool.not_false, if_pos rfl]
    exact accounts_missing (.refl start)

theorem ensures_construction (begins : start.context.current.kind = .keyword .newWord) :
    Ensures (construction expression) start (Accounts False Arena.Spelt start) := by
  unfold construction
  rw [ensures_bind, ensures_current, ensures_bind]
  apply ensures_advance
  intro opened passes
  rw [begins] at passes
  rw [ensures_bind, ensures_current, ensures_bind]
  apply ensures_word
  · intro name named more
    have passes := passes.trans more
    rw [ensures_bind]
    apply ensures_made (.typeRef name []) rfl (settles_word name)
    intro type typed more _ typeSpelt
    have passes := passes.on more
    rw [ensures_bind]
    apply ensures_accept
    · intro bracket more
      have typeSpelt := typeSpelt.later more.goes.keeps
      have passes := passes.trans more
      rw [if_pos rfl]
      refine accounts_then (faithful 0 bracket) passes.goes id rfl ?_
      intro length kinds read lengthSpelt more
      have typeSpelt := typeSpelt.later more.goes.keeps
      have passes := passes.trans more
      rw [ensures_bind]
      apply ensures_expect
      intro closed more
      have lengthCarries := lengthSpelt.carries.later more.goes.keeps
      refine accounts_finish (passes.trans more)
        (.newArray (typeSpelt.carries.later more.goes.keeps) lengthCarries)
        (by simp [List.filter_cons]) ?_
      have opening : Settles ([.keyword .newWord, .word name, .punctuation .openBracket]) :=
        ((settles_plain rfl).append typeSpelt.settles).append (settles_plain rfl)
      exact (opening.append lengthSpelt.settles).append (settles_plain rfl)
    · rw [if_neg Bool.false_ne_true]
      refine accounts_then (faithful_arguments faithful typed) passes.goes id rfl ?_
      intro arguments kinds read lists more
      rcases lists.carries with ⟨each, held, same⟩
      have typeCarries := typeSpelt.carries.later more.goes.keeps
      refine accounts_finish (passes.trans more) (.construct typeCarries held)
        (by simp [List.filter_cons, same]) ?_
      exact ((settles_plain rfl).append typeSpelt.settles).append lists.nested
  · exact accounts_missing passes.goes

omit faithful in
/-- What is read of an expression in parentheses is neutral until they close. -/
theorem settles_grouped {kinds : List TokenKind} (settles : Settles kinds) :
    Settles ([.punctuation .openParen] ++ kinds ++ [.punctuation .closeParen]) :=
  (settles.neutral.closes closes_paren).grouped

theorem ensures_cast (begins : start.context.current.kind = .punctuation .openParen) :
    Ensures (cast expression) start (Accounts False Arena.Spelt start) := by
  unfold cast
  rw [ensures_bind, ensures_current, ensures_bind]
  apply ensures_advance
  intro opened passes
  rw [begins] at passes
  refine accounts_then (faithful_type opened) passes.goes False.elim rfl ?_
  intro target kinds read targetSpelt more
  have passes := passes.trans more
  rw [ensures_bind]
  apply ensures_accept
  · intro closed more
    have targetSpelt := targetSpelt.later more.goes.keeps
    have passes := passes.trans more
    rw [Bool.not_true, if_neg Bool.false_ne_true, ensures_bind]
    apply ensures_names_builtin
    intro builtin
    rw [ensures_bind, ensures_current]
    split
    · exact (ensures_pure _ _ _).mpr (accounts_none passes.goes False.elim)
    · refine accounts_then (faithful _ closed) passes.goes id rfl ?_
      intro inner others final innerSpelt more
      have targetCarries := targetSpelt.carries.later more.goes.keeps
      have alike : (NodeKind.cast target inner none).Alike
          (fun _ child kinds => final.tree.arena.Carries child kinds) (.cast _ _ none) :=
        .cast targetCarries innerSpelt.carries
      refine accounts_finish (passes.trans more) alike (by simp) ?_
      exact (settles_grouped targetSpelt.settles).append innerSpelt.settles
  · rw [Bool.not_false, if_pos rfl]
    exact (ensures_pure _ _ _).mpr (accounts_none passes.goes False.elim)

theorem ensures_parenthesized (begins : start.context.current.kind = .punctuation .openParen) :
    Ensures (parenthesized expression) start (Accounts False Arena.Spelt start) := by
  unfold parenthesized
  rw [ensures_bind]
  apply ensures_advance
  intro opened passes
  rw [begins] at passes
  rw [ensures_bind]
  apply ensures_skip_lines
  intro skipped more
  have passes := passes.on more
  refine accounts_then (faithful 0 skipped) passes.goes id rfl ?_
  intro inner kinds read spelt more
  have passes := passes.trans more
  rw [ensures_bind]
  apply ensures_skip_lines
  intro behind more
  have carries := spelt.carries.later more.goes.keeps
  have passes := passes.on more
  rw [ensures_bind]
  apply ensures_expect
  intro final more
  apply (ensures_pure _ _ _).mpr
  refine accounts_some ⟨?_, settles_grouped spelt.settles⟩ (passes.trans more)
  simpa [List.filter_cons] using carries.later more.goes.keeps

theorem faithful_operand : Faithful False Arena.Spelt (operand expression) := by
  intro start
  unfold operand
  rw [ensures_bind, ensures_current]
  split
  · rename_i value kind
    rw [ensures_bind]
    apply ensures_advance
    intro next passes
    rw [kind] at passes
    exact accounts_finish passes (.literal value) rfl (settles_plain rfl)
  · rename_i name kind
    rw [ensures_bind]
    apply ensures_advance
    intro next passes
    rw [kind] at passes
    rw [ensures_bind, ensures_context]
    split
    · refine accounts_then (faithful_arguments faithful next) passes.goes id rfl ?_
      intro arguments kinds read lists more
      rcases lists.carries with ⟨each, held, same⟩
      refine accounts_finish (passes.trans more) (.call held) (by simp [List.filter_cons, same]) ?_
      exact Settles.append (settles_plain rfl) lists.nested
    · exact accounts_finish passes (.member name) rfl (settles_plain rfl)
  · rename_i kind
    exact ensures_construction faithful kind
  · rename_i spelling kind
    split
    · rename_i operator found
      rcases UnaryOperator.spelt_of_leading found with ⟨leading, same⟩
      rw [ensures_bind]
      apply ensures_advance
      intro next passes
      rw [kind] at passes
      refine accounts_then (faithful _ next) passes.goes id rfl ?_
      intro operand kinds read spelt more
      refine accounts_finish (passes.trans more) (.unary spelt.carries)
        (by simp [List.filter_cons, leading, same]) ?_
      exact spelt.settles.behind_operator spelling
    · exact accounts_missing (.refl start)
  · rename_i kind
    rw [ensures_bind]
    apply ensures_attempt (ensures_cast faithful kind)
    · intro cast kinds final spelt passes
      exact (ensures_pure _ _ _).mpr (accounts_some spelt passes)
    · intro dropped passes same
      apply (ensures_parenthesized faithful (same ▸ kind)).weaken
      intro result final accounts
      exact accounts.since passes
  · exact accounts_missing (.refl start)

/-- What stands behind an operand is carried behind what the operand carries. -/
theorem ensures_trailing {budget : Nat} {lower : Position} {target : NodeId}
    {before : List TokenKind} (held : start.tree.arena.Spelt target before) :
    Ensures (trailing expression budget lower target) start
      (Accounts False (fun arena node kinds => arena.Spelt node (before ++ kinds)) start) := by
  induction budget generalizing start target before with
  | zero => exact ensures_throw _ _ _
  | succ budget ih =>
      -- A node that is made behind the target, and what stands behind it.
      have goes_on : ∀ {state : ParserState} {made : NodeKind NodeId} {kinds : List TokenKind}
          {form : NodeKind (List TokenKind)}, start.Passes kinds state →
          made.Alike (fun _ child kinds => state.tree.arena.Carries child kinds) form →
          form.marks = (before ++ kinds).filter TokenKind.isMark → Settles kinds →
          Ensures (do trailing expression budget lower (← finish made lower)) state
            (Accounts False (fun arena node kinds => arena.Spelt node (before ++ kinds)) start) := by
        intro state made kinds form passes alike same settles
        rw [ensures_bind]
        apply ensures_made alike same (held.settles.append settles)
        intro node next more _ spelt
        apply (ih spelt).weaken
        intro result final accounts
        exact accounts.behind (passes.on more)
      unfold trailing
      rw [ensures_bind, ensures_current]
      split
      · rename_i kind
        rw [ensures_bind]
        apply ensures_advance
        intro next passes
        rw [kind] at passes
        rw [ensures_bind]
        apply ensures_word
        · intro name named more
          have passes := passes.trans more
          refine goes_on passes (.memberAccess (held.carries.later passes.goes.keeps))
            (by simp [List.filter_cons]) ?_
          exact (settles_plain rfl).append (settles_plain rfl)
        · exact accounts_missing passes.goes
      · rename_i kind
        rw [ensures_bind]
        apply ensures_advance
        intro next passes
        rw [kind] at passes
        refine accounts_then (faithful 0 next) passes.goes id rfl ?_
        intro index kinds read spelt more
        have passes := passes.trans more
        rw [ensures_bind]
        apply ensures_expect
        intro closed more
        have passes := passes.trans more
        refine goes_on passes (.indexAccess (held.carries.later passes.goes.keeps)
          (spelt.carries.later more.goes.keeps)) (by simp) ?_
        exact ((settles_plain rfl).append spelt.settles).append (settles_plain rfl)
      · rename_i spelling kind
        split
        · rename_i operator found
          rcases UnaryOperator.spelt_of_trailing found with ⟨behind, same⟩
          rw [ensures_bind]
          apply ensures_advance
          intro next passes
          rw [kind] at passes
          refine goes_on passes (.unary (held.carries.later passes.goes.keeps))
            (by simp [List.filter_cons, behind, same]) ?_
          exact settles_plain (UnaryOperator.plain_of_trailing found)
        · apply (ensures_pure _ _ _).mpr
          exact accounts_some (by simpa using held) (.refl start)
      · apply (ensures_pure _ _ _).mpr
        exact accounts_some (by simpa using held) (.refl start)

theorem ensures_binaries {minimum budget : Nat} {lower : Position} {left : NodeId}
    {before : List TokenKind} (held : start.tree.arena.Spelt left before) :
    Ensures (binaries expression minimum budget lower left) start
      (Accounts False (fun arena node kinds => arena.Spelt node (before ++ kinds)) start) := by
  induction budget generalizing start left before with
  | zero => exact ensures_throw _ _ _
  | succ budget ih =>
      unfold binaries
      rw [ensures_bind, ensures_current]
      split
      · apply (ensures_pure _ _ _).mpr
        exact accounts_some (by simpa using held) (.refl start)
      · rename_i operator power found
        rw [ensures_bind]
        apply ensures_advance
        intro next passes
        rw [kind_of_tighter found] at passes
        rw [ensures_bind]
        apply ensures_skip_lines
        intro skipped more
        have passes := passes.on more
        refine accounts_then (faithful power skipped) passes.goes id rfl ?_
        intro right kinds read spelt more
        have passes := passes.trans more
        rw [ensures_bind]
        have settles := held.settles.append (spelt.settles.behind_operator operator.spelt)
        apply ensures_made (.binary (held.carries.later passes.goes.keeps) spelt.carries)
          (by simp [List.filter_cons]) settles
        intro node made more _ whole
        apply (ih whole).weaken
        intro result final accounts
        exact accounts.behind (passes.on more)

theorem faithful_operation (minimum : Nat) :
    Faithful False Arena.Spelt (operation expression minimum) := by
  intro start
  unfold operation
  rw [ensures_bind, ensures_current]
  refine accounts_then (faithful_operand faithful start) (.refl start) id rfl ?_
  intro first kinds read spelt passes
  rw [ensures_bind, ensures_remaining]
  refine accounts_then (ensures_trailing faithful spelt) passes.goes id rfl ?_
  intro left more behind spelt also
  have passes := passes.trans also
  rw [ensures_bind, ensures_remaining]
  apply (ensures_binaries faithful spelt).weaken
  intro result final accounts
  exact @Accounts.behind _ _ Arena.Spelt _ _ _ _ _ [] accounts passes

end Productions

theorem faithful_expression_within (budget minimum : Nat) :
    Faithful False Arena.Spelt (expressionWithin budget minimum) := by
  induction budget generalizing minimum with
  | zero =>
      intro start
      exact ensures_throw _ _ _
  | succ budget ih => exact faithful_operation ih minimum

theorem faithful_expression (minimum : Nat) :
    Faithful False Arena.Spelt (expression minimum) := by
  intro start
  unfold expression
  rw [ensures_bind, ensures_remaining]
  exact faithful_expression_within _ minimum start

end Parser

end ModuleLang
