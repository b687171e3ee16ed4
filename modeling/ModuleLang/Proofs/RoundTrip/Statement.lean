import ModuleLang.Parsing.Statement
import ModuleLang.Proofs.RoundTrip.Expression

/-!
Simple statements. They are tried in order on forks: a definition first, then an
assignment, then an expression by itself. A definition begins with a type and a name,
which no expression does; the target of an assignment stands in front of an operator
that no statement by itself is followed by. So the first fork that returns something
is the right one.
-/

namespace ModuleLang.Parser

open ParserState TokenKind

variable {kinds rest : List TokenKind} {start : ParserState} {tree value : SyntaxTree}

theorem closes_end (minimum : Nat) (kinds : List TokenKind) :
    Closes minimum (.endOfStatement :: kinds) :=
  ⟨by simp [next], rfl, rfl⟩

theorem closes_assignment (operator : AssignOperator) (kinds : List TokenKind) :
    Closes Operator.leadingPower (.operator operator.spelt :: kinds) := by
  refine ⟨by simp [next], ?_, tighter_of_leading (Nat.le_refl _) _⟩
  cases operator <;> rfl

theorem returns_expression (formed : tree.IsExpression) (closes : Closes 0 rest) :
    Returns (expression 0) tree tree.tokens rest := by
  intro start reads
  unfold expression
  rw [yields_bind, yields_remaining]
  exact (readable_of_expression formed).returns (length_of_reads reads) closes start reads

/-- An expression without a binary operator outside of parentheses. -/
theorem returns_tight_expression (formed : tree.IsExpression)
    (tight : Operator.leadingPower < tree.power) (closes : Closes Operator.leadingPower rest) :
    Returns (expression Operator.leadingPower) tree tree.tokens rest := by
  intro start reads
  unfold expression
  rw [yields_bind, yields_remaining]
  exact returns_of_operates (readable_of_expression formed).operates (length_of_reads reads) closes
    tight start reads

theorem at_statement_end (reads : start.Reads kinds) :
    start.context.atStatementEnd = ParsingContext.endsStatement (next kinds) := by
  rw [ParsingContext.atStatementEnd, kind_of_reads reads]

theorem not_statement_end_of_begins {kinds : List TokenKind} (begins : BeginsExpression kinds) :
    ParsingContext.endsStatement (next kinds) = false := by
  rcases begins with ⟨first, more, rfl, begins⟩
  change ParsingContext.endsStatement first = false
  cases first with
  | punctuation mark => cases mark <;> first | rfl | cases begins
  | keyword | word | literal | operator => rfl
  | _ => cases begins

/-- A semicolon ends a statement. -/
theorem yields_ended {holds : PUnit → ParserState → Prop}
    (reads : start.Reads (.endOfStatement :: rest))
    (met : ∀ final, start.Continues rest final → holds ⟨⟩ final) :
    Yields endStatement start holds := by
  have here : start.context.atStatementEnd = true := at_statement_end reads
  unfold endStatement
  rw [yields_bind, yields_context, here, Bool.not_true, if_neg Bool.false_ne_true, yields_bind,
    yields_current, kind_of_cons reads, beq_self_eq_true, if_pos rfl]
  exact yields_past reads met

section Definition

variable {type : SyntaxTree} {name : String}

theorem fails_definition (plain : NoType kinds) : Fails definition kinds := by
  intro start reads
  unfold definition
  rw [yields_bind, yields_current, yields_bind]
  apply yields_no_type plain reads
  · intro final keeps recorded
    exact ⟨rfl, keeps, recorded⟩
  · rintro node typed rest ⟨unnamed, -, -⟩ first
    simp only
    rw [yields_bind]
    apply yields_unnamed first.reads unnamed
    exact ⟨rfl, first.keeps, first.reads.recorded⟩

/-- A type and a name are read as a definition, which what follows then completes. -/
theorem yields_defined {holds : Option NodeId → ParserState → Prop} (typed : type.IsType)
    (reads : start.Reads (type.tokens ++ .word name :: rest))
    (met : ∀ node final, final.HasTree node (.node (.definition (some type) name)) →
      start.Continues rest final →
      Yields (do
        if (← context).atStatementEnd then return some node
        if !(← context).atOperator .assign then return none
        advance
        let some value ← expression 0 | return none
        return some (← finish (.assign .assign node value) start.here)) final holds) :
    Yields definition start holds := by
  unfold definition
  rw [yields_bind, yields_current, yields_bind]
  apply (returns_type typed (ends_type_of_ne (by simp [next])) start reads).weaken
  rintro _ typed ⟨written, rfl, held, first⟩
  simp only
  rw [yields_bind]
  apply yields_named first.reads
  intro named second
  simp only
  rw [yields_bind]
  apply yields_made second.reads
  intro node final third found
  apply met node final ?_ ((first.trans second).trans third)
  have there := held.later (second.trans third).keeps
  exact Arena.has_tree_node found (.definition (.some there)) rfl rfl

theorem returns_definition (typed : type.IsType) :
    Returns definition (.node (.definition (some type) name))
      (SyntaxTree.node (.definition (some type) name)).tokens (.endOfStatement :: rest) := by
  intro start reads
  rw [SyntaxTree.tokens, List.append_assoc, List.singleton_append] at reads
  apply yields_defined typed reads
  intro node final held continues
  have here : final.context.atStatementEnd = true := at_statement_end continues.reads
  rw [yields_bind, yields_context, here, if_pos rfl]
  exact ⟨node, rfl, held, continues⟩

theorem returns_define (typed : type.IsType) (formed : value.IsExpression) :
    Returns definition (.node (.assign .assign (.node (.definition (some type) name)) value))
      (SyntaxTree.node (.assign .assign (.node (.definition (some type) name)) value)).tokens
      (.endOfStatement :: rest) := by
  intro start reads
  rw [SyntaxTree.tokens, SyntaxTree.tokens, List.append_assoc, List.append_assoc,
    List.singleton_append, List.cons_append] at reads
  apply yields_defined typed reads
  intro node defined held first
  have going : defined.context.atStatementEnd = false := at_statement_end first.reads
  have assigns : defined.context.atOperator .assign = true := by
    rw [ParsingContext.atOperator, kind_of_cons first.reads]
    rfl
  rw [yields_bind, yields_context, going, if_neg Bool.false_ne_true, yields_bind, yields_context,
    assigns, Bool.not_true, if_neg Bool.false_ne_true, yields_bind]
  apply yields_past first.reads
  intro behind second
  rw [yields_bind]
  apply (returns_expression formed (closes_end 0 rest) behind second.reads).weaken
  rintro _ read ⟨given, rfl, givenHeld, third⟩
  simp only
  rw [yields_bind]
  apply yields_made third.reads
  intro assign final fourth found
  refine ⟨assign, rfl, ?_, ((first.trans second).trans third).trans fourth⟩
  have target := held.later ((second.trans third).trans fourth).keeps
  exact Arena.has_tree_node found (.assign target (givenHeld.later fourth.keeps)) rfl rfl

end Definition

/-- Where an expression can be told from a target by its kind. -/
theorem yields_kind_held {node : NodeId} {holds : Option (NodeKind NodeId) → ParserState → Prop}
    (held : start.HasTree node tree)
    (met : ∀ kind values, tree = .node (kind.map values) → holds (some kind) start) :
    Yields (kind? node) start holds := by
  rcases held.kind with ⟨kind, values, found, same⟩
  rw [yields_kind, found]
  exact met kind values same

theorem assignable_of_place {kind : NodeKind NodeId} {values : NodeId → SyntaxTree}
    (place : (kind.map values).isPlace = true) : isAssignable kind = true := by
  cases kind <;> first | rfl | cases place

theorem stands_alone_of_statement {kind : NodeKind NodeId} {values : NodeId → SyntaxTree}
    (formed : (SyntaxTree.node (kind.map values)).IsExpression)
    (alone : (kind.map values).isStatement = true) : standsAlone kind = true := by
  cases kind <;> first | exact alone | rfl | cases formed

theorem not_assignable_of_statement {kind : NodeKind NodeId} {values : NodeId → SyntaxTree}
    (alone : (kind.map values).isStatement = true) : isAssignable kind = false := by
  cases kind <;> first | rfl | cases alone

/-- Nothing that can be assigned to, or stands alone, has a binary operator outside of
parentheses. -/
theorem tight_of_place (place : tree.kind.isPlace = true) : Operator.leadingPower < tree.power := by
  rcases tree with ⟨kind⟩
  have least : Operator.leadingPower < Operator.leadingPower + 2 := by decide
  cases kind <;> first | exact least | cases place

theorem tight_of_alone (formed : tree.IsExpression) (alone : tree.kind.isStatement = true) :
    Operator.leadingPower < tree.power := by
  have least : Operator.leadingPower < Operator.leadingPower + 2 := by decide
  cases formed with
  | call | construct => exact least
  | unary =>
      rw [SyntaxTree.power]
      split
      · exact Nat.lt_succ_self _
      · exact least
  | _ => cases alone

/-- A target, an operator and a value. -/
theorem returns_assignment {operator : AssignOperator} (left : tree.IsExpression)
    (place : tree.kind.isPlace = true) (formed : value.IsExpression) :
    Returns assignment (.node (.assign operator tree value))
      (SyntaxTree.node (.assign operator tree value)).tokens (.endOfStatement :: rest) := by
  intro start reads
  rw [SyntaxTree.tokens, List.append_assoc, List.cons_append] at reads
  unfold assignment
  rw [yields_bind, yields_current, yields_bind]
  apply (returns_tight_expression left (tight_of_place place) (closes_assignment operator _) start
    reads).weaken
  rintro _ read ⟨target, rfl, targetHeld, first⟩
  simp only
  rw [yields_bind]
  apply yields_kind_held targetHeld
  rintro kind values rfl
  rw [Option.any_some, assignable_of_place place, Bool.not_true, if_neg Bool.false_ne_true,
    yields_bind, yields_current, kind_of_cons first.reads]
  have means : assignment? (.operator operator.spelt) = some operator := operator.of_operator_spelt
  rw [means]
  simp only
  rw [yields_bind]
  apply yields_past first.reads
  intro behind second
  rw [yields_bind]
  apply (returns_expression formed (closes_end 0 rest) behind second.reads).weaken
  rintro _ given ⟨right, rfl, rightHeld, third⟩
  simp only
  rw [yields_bind]
  apply yields_made third.reads
  intro node final fourth found
  refine ⟨node, rfl, ?_, ((first.trans second).trans third).trans fourth⟩
  have there := targetHeld.later ((second.trans third).trans fourth).keeps
  exact Arena.has_tree_node found (.assign there (rightHeld.later fourth.keeps)) rfl rfl

/-- What stands alone is no target. -/
theorem fails_assignment (formed : tree.IsExpression) (alone : tree.kind.isStatement = true) :
    Fails assignment (tree.tokens ++ .endOfStatement :: rest) := by
  intro start reads
  unfold assignment
  rw [yields_bind, yields_current, yields_bind]
  apply (returns_tight_expression formed (tight_of_alone formed alone) (closes_end _ rest) start
    reads).weaken
  rintro _ read ⟨target, rfl, targetHeld, first⟩
  simp only
  rw [yields_bind]
  apply yields_kind_held targetHeld
  rintro kind values rfl
  rw [Option.any_some, not_assignable_of_statement alone, Bool.not_false, if_pos rfl]
  exact ⟨rfl, first.keeps, first.reads.recorded⟩

theorem returns_expression_statement (formed : tree.IsExpression)
    (alone : tree.kind.isStatement = true) :
    Returns expressionStatement tree tree.tokens (.endOfStatement :: rest) := by
  intro start reads
  unfold expressionStatement
  rw [yields_bind]
  apply (returns_expression formed (closes_end 0 rest) start reads).weaken
  rintro _ read ⟨node, rfl, held, first⟩
  simp only
  rw [yields_bind]
  apply yields_kind_held held
  rintro kind values rfl
  rw [Option.any_some, stands_alone_of_statement formed alone, if_pos rfl]
  exact ⟨node, rfl, held, first⟩

section Simple

/-- The end of a statement whose node is made. -/
theorem returns_ended {node : NodeId} {middle : ParserState} (held : middle.HasTree node tree)
    (passed : start.Continues (.endOfStatement :: rest) middle) :
    Yields (do
      endStatement
      return some node) middle fun result final =>
        ∃ found, result = some found ∧ final.HasTree found tree ∧ start.Continues rest final := by
  rw [yields_bind]
  apply yields_ended passed.reads
  intro final last
  exact ⟨node, rfl, held.later last.keeps, passed.trans last⟩

/-- The fork that returns something is taken, and then the statement ends. -/
theorem yields_fork_taken {production : Parser (Option NodeId)} {tokens : List TokenKind}
    {middle : ParserState} {next : Option NodeId → Parser (Option NodeId)}
    (returns : Returns production tree tokens (.endOfStatement :: rest))
    (passed : start.Continues (tokens ++ .endOfStatement :: rest) middle)
    (ends : ∀ node, next (some node) = do
      endStatement
      return some node) :
    Yields (attempt production >>= next) middle fun result final =>
      ∃ found, result = some found ∧ final.HasTree found tree ∧ start.Continues rest final := by
  rw [yields_bind]
  apply yields_taken returns passed.reads fun _ _ _ => has_tree_same_tree
  intro node taken held first
  rw [ends node]
  exact returns_ended held (passed.trans first)

theorem returns_simple_definition
    (returns : Returns definition tree tree.tokens (.endOfStatement :: rest)) :
    Returns simpleStatement tree (tree.tokens ++ [.endOfStatement]) rest := by
  intro start reads
  rw [List.append_assoc, List.singleton_append] at reads
  exact yields_fork_taken returns (.refl reads) fun _ => rfl

theorem returns_simple_assignment (plain : NoType (tree.tokens ++ .endOfStatement :: rest))
    (returns : Returns assignment tree tree.tokens (.endOfStatement :: rest)) :
    Returns simpleStatement tree (tree.tokens ++ [.endOfStatement]) rest := by
  intro start reads
  rw [List.append_assoc, List.singleton_append] at reads
  unfold simpleStatement
  rw [yields_bind]
  apply yields_dropped (fails_definition plain) reads
  intro dropped first
  exact yields_fork_taken returns first fun _ => rfl

theorem returns_simple_expression (formed : tree.IsExpression)
    (alone : tree.kind.isStatement = true) :
    Returns simpleStatement tree (tree.tokens ++ [.endOfStatement]) rest := by
  intro start reads
  rw [List.append_assoc, List.singleton_append] at reads
  have plain : NoType (tree.tokens ++ .endOfStatement :: rest) := by
    apply formed.no_type
    rintro name rfl
    cases alone
  unfold simpleStatement
  rw [yields_bind]
  apply yields_dropped (fails_definition plain) reads
  intro dropped first
  simp only
  rw [yields_bind]
  apply yields_dropped (fails_assignment formed alone) first.reads
  intro dropped' second
  exact yields_fork_taken (returns_expression_statement formed alone) (first.trans second)
    fun _ => rfl

end Simple

/-- A keyword that is a statement by itself. -/
theorem returns_jump {word : Keyword} {kind : NodeKind NodeId} {form : NodeKind SyntaxTree}
    (alike : ∀ arena : Arena, kind.Alike (fun _ child tree => arena.HasTree child tree) form)
    (plain : kind.unsourced = kind) (plain' : form.unsourced = form) :
    Returns (jump kind) (.node form) [.keyword word, .endOfStatement] rest := by
  intro start reads
  rw [List.cons_append, List.singleton_append] at reads
  unfold jump
  rw [yields_bind, yields_current, yields_bind]
  apply yields_past reads
  intro behind first
  rw [yields_bind]
  apply yields_made first.reads
  intro node made second found
  exact returns_ended (Arena.has_tree_node found (alike _) plain plain') (first.trans second)

theorem returns_return_nothing :
    Returns returnStatement (.node (.returnFrom none))
      [.keyword .returnWord, .endOfStatement] rest := by
  intro start reads
  rw [List.cons_append, List.singleton_append] at reads
  unfold returnStatement
  rw [yields_bind, yields_current, yields_bind]
  apply yields_past reads
  intro behind first
  have here : behind.context.atStatementEnd = true := at_statement_end first.reads
  rw [yields_bind, yields_context, here, if_pos rfl, yields_bind]
  apply yields_made first.reads
  intro node made second found
  exact returns_ended (Arena.has_tree_node found (.returnFrom .none) rfl rfl) (first.trans second)

theorem returns_return_value (formed : value.IsExpression) :
    Returns returnStatement (.node (.returnFrom (some value)))
      (.keyword .returnWord :: (value.tokens ++ [.endOfStatement])) rest := by
  intro start reads
  rw [List.cons_append, List.append_assoc, List.singleton_append] at reads
  unfold returnStatement
  rw [yields_bind, yields_current, yields_bind]
  apply yields_past reads
  intro behind first
  have going : behind.context.atStatementEnd = false :=
    (at_statement_end first.reads).trans (not_statement_end_of_begins (formed.begins.append _))
  rw [yields_bind, yields_context, going, if_neg Bool.false_ne_true, yields_bind]
  apply (returns_expression formed (closes_end 0 rest) behind first.reads).weaken
  rintro _ read ⟨result, rfl, held, second⟩
  simp only
  rw [yields_bind]
  apply yields_made second.reads
  intro node made third found
  have there := held.later third.keeps
  exact returns_ended (Arena.has_tree_node found (.returnFrom (.some there)) rfl rfl)
    ((first.trans second).trans third)

/-- A predicate stands in parentheses. -/
theorem returns_predicate (formed : tree.IsExpression) :
    Returns predicate tree (inParentheses tree.tokens) rest := by
  intro start reads
  rw [inParentheses, List.append_assoc, List.cons_append, List.singleton_append] at reads
  unfold predicate
  rw [yields_bind]
  apply yields_accepted reads
  intro opened first
  rw [Bool.not_true, if_neg Bool.false_ne_true, yields_bind, yields_stay first.reads, yields_bind]
  apply (returns_expression formed (closes_paren 0 rest) opened first.reads).weaken
  rintro _ read ⟨node, rfl, held, second⟩
  simp only
  rw [yields_bind, yields_stay second.reads, yields_bind]
  apply yields_expected second.reads
  intro final third
  exact ⟨node, rfl, held.later third.keeps, (first.trans second).trans third⟩

end ModuleLang.Parser
