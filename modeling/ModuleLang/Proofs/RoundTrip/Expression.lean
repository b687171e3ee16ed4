import ModuleLang.Proofs.RoundTrip.Operand

/-!
Whole expressions. An operand is put in parentheses where its operators would be read
as somebody else's, and these parentheses are never taken for a cast. A binary tree
leaves its right operand to an expression that stops at operators as loose as its
own, and goes on with the operators behind it; so a tree is read back at any depth,
by induction on it.
-/

namespace ModuleLang.Parser

open ParserState TokenKind

variable {kinds rest : List TokenKind} {start : ParserState} {budget : Nat} {tree : SyntaxTree}

/-- An expression in parentheses is an operand, unless it is a mere name. -/
theorem returns_parenthesized (formed : tree.IsExpression) (readable : Readable tree)
    (other : ∀ name, tree ≠ .node (.member name))
    (room : (inParentheses tree.tokens ++ rest).length ≤ budget) :
    Returns (operand (expressionWithin budget)) tree (inParentheses tree.tokens) rest := by
  intro start reads
  rw [inParentheses, List.append_assoc, List.cons_append, List.singleton_append] at reads room
  rw [List.length_cons] at room
  have plain : NoType (tree.tokens ++ .punctuation .closeParen :: rest) :=
    formed.no_type _ fun name same => absurd same (other name)
  unfold operand
  rw [yields_bind, yields_current, kind_of_cons reads]
  simp only
  rw [yields_bind]
  apply yields_dropped (fails_cast plain) reads
  intro dropped first
  simp only
  unfold parenthesized
  rw [yields_bind]
  apply yields_past first.reads
  intro opened second
  rw [yields_bind, yields_stay second.reads, yields_bind]
  apply (readable.returns (by omega) (closes_paren 0 rest) opened second.reads).weaken
  rintro _ read ⟨inner, rfl, held, third⟩
  simp only
  rw [yields_bind, yields_stay third.reads, yields_bind]
  apply yields_expected third.reads
  intro final fourth
  exact ⟨inner, rfl, held.later fourth.keeps, ((first.trans second).trans third).trans fourth⟩

/-- A mere name is as tight as anything. -/
theorem not_member_of_power {least : Nat} (bound : least ≤ Operator.leadingPower + 2)
    (loose : tree.power < least) (name : String) : tree ≠ .node (.member name) := by
  rintro rfl
  exact Nat.lt_irrefl _ (Nat.lt_of_lt_of_le loose bound)

theorem trails_parenthesized (formed : tree.IsExpression) (readable : Readable tree)
    (other : ∀ name, tree ≠ .node (.member name)) (tight : Prop) (budget : Nat) :
    Trails budget tree (inParentheses tree.tokens) tight :=
  trails_of_returns fun _ room _ _ => returns_parenthesized formed readable other room

/-- What stands in front of something written behind it. -/
theorem trails_operand (formed : tree.IsExpression) (readable : Readable tree) (budget : Nat) :
    Trails budget tree (TokenKind.operand (Operator.leadingPower + 2) tree tree.tokens) True := by
  unfold TokenKind.operand
  split
  · rename_i loose
    exact trails_parenthesized formed readable (not_member_of_power (Nat.le_refl _) loose) True budget
  · rename_i tight
    have least : Operator.leadingPower + 2 ≤ tree.power := Nat.le_of_not_lt tight
    intro rest start place holds reads enough noCall _ met
    exact readable.trails (by omega) budget rest start place holds reads enough noCall
      (Or.inl least) met

/-- The operand on the left of an operator. -/
theorem operates_operand {least : Nat} (bound : least ≤ Operator.leadingPower + 2)
    (formed : tree.IsExpression) (readable : Readable tree) :
    Operates tree (TokenKind.operand least tree tree.tokens) (max least tree.power) := by
  unfold TokenKind.operand
  split
  · rename_i loose
    exact operates_of_trails fun budget =>
      trails_parenthesized formed readable (not_member_of_power bound loose) True budget
  · rename_i tight
    rw [Nat.max_eq_right (Nat.le_of_not_lt tight)]
    exact readable.operates

/-- The operand on the right of an operator, or behind a leading one. -/
theorem returns_operand {minimum : Nat} (bound : minimum ≤ Operator.leadingPower)
    (formed : tree.IsExpression) (readable : Readable tree)
    (room : (TokenKind.operand (minimum + 1) tree tree.tokens ++ rest).length < budget)
    (closes : Closes minimum rest) :
    Returns (expressionWithin budget minimum) tree
      (TokenKind.operand (minimum + 1) tree tree.tokens) rest :=
  returns_of_operates (operates_operand (by omega) formed readable) room closes
    (Nat.lt_of_lt_of_le (Nat.lt_succ_self minimum) (Nat.le_max_left _ _))

/-- A leading operator and its operand. -/
theorem returns_leading {operator : UnaryOperator} (leading : operator.isLeading = true)
    (formed : tree.IsExpression) (readable : Readable tree)
    (room : ((SyntaxTree.node (.unary operator tree)).tokens ++ rest).length ≤ budget)
    (noCall : next rest ≠ .punctuation .openParen)
    (complete : continuesOperand (next rest) = false) :
    Returns (operand (expressionWithin budget)) (.node (.unary operator tree))
      (SyntaxTree.node (.unary operator tree)).tokens rest := by
  intro start reads
  rw [SyntaxTree.tokens, if_pos leading, List.cons_append] at reads room
  rw [List.length_cons] at room
  unfold operand
  rw [yields_bind, yields_current, kind_of_cons reads]
  simp only [UnaryOperator.leading_spelt leading]
  rw [yields_bind]
  apply yields_past reads
  intro behind first
  have closes : Closes Operator.leadingPower rest :=
    ⟨noCall, complete, tighter_of_leading (Nat.le_refl _) _⟩
  rw [yields_bind]
  apply (returns_operand (Nat.le_refl _) formed readable (by omega) closes behind
    first.reads).weaken
  rintro _ read ⟨inner, rfl, held, second⟩
  simp only
  rw [yields_bind]
  apply yields_made second.reads
  intro node final third found
  refine ⟨node, rfl, ?_, (first.trans second).trans third⟩
  exact Arena.has_tree_node found (.unary (held.later third.keeps)) rfl rfl

/-- A token that only an operand begins with, and that no cast is hidden by. -/
theorem begins_operand_of_shown {kind : TokenKind} (begins : beginsExpression kind = true)
    (shown : hidesCast kind = false) : beginsOperand kind = true := by
  cases kind with
  | punctuation mark => cases mark <;> first | rfl | cases begins
  | keyword reserved => cases reserved <;> first | (cases begins; done) | cases shown
  | word | literal => rfl
  | operator => cases shown
  | _ => cases begins

/-- Behind the parenthesis of a cast stands what can only be an operand, if the type is
not built in. -/
theorem begins_cast_operand {target : SyntaxTree} (formed : tree.IsExpression)
    (rest : List TokenKind) : target.isBuiltin = true ∨
      beginsOperand (next (castOperand target tree tree.tokens ++ rest)) = true := by
  unfold castOperand
  split
  · exact Or.inr rfl
  · rename_i bare
    rcases formed.begins with ⟨first, more, same, begins⟩
    rw [same] at bare ⊢
    simp only [List.head?_cons, Option.any_some, Bool.or_eq_true, Bool.and_eq_true,
      Bool.not_eq_true', not_or, not_and, Bool.not_eq_true, decide_eq_true_eq] at bare
    by_cases builtin : target.isBuiltin = true
    · exact Or.inl builtin
    · rw [Bool.not_eq_true] at builtin
      exact Or.inr (begins_operand_of_shown begins (bare.2 builtin))

theorem returns_cast_operand {target : SyntaxTree} (formed : tree.IsExpression)
    (readable : Readable tree) (closes : Closes Operator.leadingPower rest)
    (room : (castOperand target tree tree.tokens ++ rest).length < budget) :
    Returns (expressionWithin budget Operator.leadingPower) tree
      (castOperand target tree tree.tokens) rest := by
  unfold castOperand at room ⊢
  split
  · rename_i wrapped
    rw [if_pos wrapped] at room
    have other : ∀ name, tree ≠ .node (.member name) := by
      rintro name rfl
      simp [SyntaxTree.power, SyntaxTree.tokens, hidesCast] at wrapped
    have operates : Operates tree (inParentheses tree.tokens) (Operator.leadingPower + 1) :=
      operates_of_trails fun budget => trails_parenthesized formed readable other True budget
    exact returns_of_operates operates room closes (Nat.lt_succ_self _)
  · rename_i bare
    rw [if_neg bare] at room
    have tight : Operator.leadingPower < tree.power := by
      by_contra loose
      exact bare (by simp [Nat.lt_succ_of_le (Nat.le_of_not_lt loose)])
    exact returns_of_operates readable.operates room closes tight

/-- A cast and its operand. -/
theorem reproduces_cast {target : SyntaxTree} (typed : target.IsType) (formed : tree.IsExpression)
    (readable : Readable tree)
    (room : ((SyntaxTree.node (.cast target tree none)).tokens ++ rest).length ≤ budget)
    (noCall : next rest ≠ .punctuation .openParen)
    (complete : continuesOperand (next rest) = false) :
    Returns (cast (expressionWithin budget)) (.node (.cast target tree none))
      (SyntaxTree.node (.cast target tree none)).tokens rest := by
  intro start reads
  have tokens : (SyntaxTree.node (.cast target tree none)).tokens ++ rest =
      .punctuation .openParen :: (target.tokens ++ .punctuation .closeParen ::
        (castOperand target tree tree.tokens ++ rest)) := by
    simp [SyntaxTree.tokens, inParentheses]
  rw [tokens] at reads room
  rw [List.length_cons, List.length_append, List.length_cons] at room
  unfold cast
  rw [yields_bind, yields_current, yields_bind]
  apply yields_past reads
  intro opened first
  rw [yields_bind]
  apply (returns_type typed (ends_type_of_ne (by simp [next])) opened first.reads).weaken
  rintro _ named ⟨type, rfl, typeHeld, second⟩
  simp only
  rw [yields_bind]
  apply yields_accepted second.reads
  intro closed third
  rw [Bool.not_true, if_neg Bool.false_ne_true, yields_bind]
  apply yields_builtin typed (typeHeld.later third.keeps)
  rw [yields_bind, yields_current, kind_of_reads third.reads]
  have allowed : ¬ (!target.isBuiltin &&
      !beginsOperand (next (castOperand target tree tree.tokens ++ rest))) = true := by
    rcases @begins_cast_operand tree target formed rest with builtin | begins
    · simp [builtin]
    · simp [begins]
  rw [if_neg allowed, yields_bind]
  have closes : Closes Operator.leadingPower rest :=
    ⟨noCall, complete, tighter_of_leading (Nat.le_refl _) _⟩
  apply (returns_cast_operand formed readable closes (by omega) closed third.reads).weaken
  rintro _ read ⟨inner, rfl, held, fourth⟩
  simp only
  rw [yields_bind]
  apply yields_made fourth.reads
  intro node final fifth found
  refine ⟨node, rfl, ?_, (((first.trans second).trans third).trans fourth).trans fifth⟩
  have typeThere := typeHeld.later ((third.trans fourth).trans fifth).keeps
  exact Arena.has_tree_node found (.cast typeThere (held.later fifth.keeps)) rfl rfl

theorem has_tree_same_tree {before after : ParserState} {node : NodeId} (same : after.tree = before.tree)
    (held : before.HasTree node tree) : after.HasTree node tree := by
  unfold ParserState.HasTree at *
  rw [same]
  exact held

theorem returns_cast {target : SyntaxTree} (typed : target.IsType) (formed : tree.IsExpression)
    (readable : Readable tree)
    (room : ((SyntaxTree.node (.cast target tree none)).tokens ++ rest).length ≤ budget)
    (noCall : next rest ≠ .punctuation .openParen)
    (complete : continuesOperand (next rest) = false) :
    Returns (operand (expressionWithin budget)) (.node (.cast target tree none))
      (SyntaxTree.node (.cast target tree none)).tokens rest := by
  intro start reads
  have opens : start.context.current.kind = .punctuation .openParen := by
    rw [kind_of_reads reads, SyntaxTree.tokens]
    rfl
  unfold operand
  rw [yields_bind, yields_current, opens]
  simp only
  rw [yields_bind]
  apply yields_taken (reproduces_cast typed formed readable room noCall complete) reads
    fun _ _ _ => has_tree_same_tree
  intro found final held continues
  exact ⟨found, rfl, held, continues⟩

section Trailing

variable {owner : SyntaxTree} {holds : Option NodeId → ParserState → Prop}

/-- A member of an owner. -/
theorem trails_member_access {name : String} (formed : owner.IsExpression)
    (readable : Readable owner) (budget : Nat) (tight : Prop) :
    Trails budget (.node (.memberAccess owner name))
      (SyntaxTree.node (.memberAccess owner name)).tokens tight := by
  intro rest start place holds reads enough noCall complete met
  rw [SyntaxTree.tokens, List.append_assoc] at reads enough
  apply trails_operand formed readable budget _ start place holds reads enough (by simp [next])
    (Or.inl trivial)
  intro first middle more held passed room
  rw [List.cons_append, List.cons_append, List.nil_append] at passed room
  rw [List.length_cons, List.length_cons] at room
  obtain ⟨more, rfl⟩ : ∃ less, more = less + 1 := ⟨more - 1, by omega⟩
  unfold trailing
  rw [yields_bind, yields_current, kind_of_cons passed.reads]
  simp only
  rw [yields_bind]
  apply yields_past passed.reads
  intro behind second
  rw [yields_bind]
  apply yields_named second.reads
  intro named third
  simp only
  rw [yields_bind]
  apply yields_made third.reads
  intro node final fourth found
  have steps := (second.trans third).trans fourth
  refine met node final more ?_ (passed.trans steps) (by omega)
  exact Arena.has_tree_node found (.memberAccess (held.later steps.keeps)) rfl rfl

/-- An element of an array. -/
theorem trails_index_access {index : SyntaxTree} (formed : owner.IsExpression)
    (readable : Readable owner) (inside : Readable index) (budget : Nat) (tight : Prop) :
    Trails budget (.node (.indexAccess owner index))
      (SyntaxTree.node (.indexAccess owner index)).tokens tight := by
  intro rest start place holds reads enough noCall complete met
  rw [SyntaxTree.tokens, List.append_assoc, inBrackets, List.append_assoc, List.cons_append,
    List.singleton_append] at reads enough
  apply trails_operand formed readable budget _ start place holds reads enough (by simp [next])
    (Or.inl trivial)
  intro first middle more held passed room
  rw [List.length_append, List.length_cons] at enough
  rw [List.length_cons, List.length_append, List.length_cons] at room
  obtain ⟨more, rfl⟩ : ∃ less, more = less + 1 := ⟨more - 1, by omega⟩
  unfold trailing
  rw [yields_bind, yields_current, kind_of_cons passed.reads]
  simp only
  rw [yields_bind]
  apply yields_past passed.reads
  intro behind second
  rw [yields_bind]
  apply (inside.returns (by omega) (closes_bracket 0 rest) behind second.reads).weaken
  rintro _ read ⟨element, rfl, elementHeld, third⟩
  simp only
  rw [yields_bind]
  apply yields_expected third.reads
  intro closed fourth
  rw [yields_bind]
  apply yields_made fourth.reads
  intro node final fifth found
  have steps := ((second.trans third).trans fourth).trans fifth
  refine met node final more ?_ (passed.trans steps) (by omega)
  have elementThere := elementHeld.later (fourth.trans fifth).keeps
  exact Arena.has_tree_node found (.indexAccess (held.later steps.keeps) elementThere) rfl rfl

/-- A step behind its operand. -/
theorem trails_step {operator : UnaryOperator} (behind : operator.isLeading = false)
    (formed : owner.IsExpression) (readable : Readable owner) (budget : Nat) (tight : Prop) :
    Trails budget (.node (.unary operator owner))
      (SyntaxTree.node (.unary operator owner)).tokens tight := by
  intro rest start place holds reads enough noCall complete met
  rw [SyntaxTree.tokens, behind, if_neg Bool.false_ne_true, List.append_assoc,
    List.singleton_append] at reads enough
  apply trails_operand formed readable budget _ start place holds reads enough (by simp [next])
    (Or.inl trivial)
  intro first middle more held passed room
  rw [List.length_cons] at room
  obtain ⟨more, rfl⟩ : ∃ less, more = less + 1 := ⟨more - 1, by omega⟩
  unfold trailing
  rw [yields_bind, yields_current, kind_of_cons passed.reads]
  simp only [UnaryOperator.trailing_spelt behind]
  rw [yields_bind]
  apply yields_past passed.reads
  intro stepped second
  rw [yields_bind]
  apply yields_made second.reads
  intro node final third found
  have steps := second.trans third
  refine met node final more ?_ (passed.trans steps) (by omega)
  exact Arena.has_tree_node found (.unary (held.later steps.keeps)) rfl rfl

end Trailing

/-- No operator between operands is looked for behind an operand. -/
theorem operator_completes (operator : BinaryOperator) :
    continuesOperand (.operator operator.spelt) = false := by
  cases operator <;> rfl

/-- An operator with its operands, as long as those behind it are looser. -/
theorem operates_binary {operator : BinaryOperator} {left right : SyntaxTree}
    (formed : left.IsExpression) (readable : Readable left) (formed' : right.IsExpression)
    (readable' : Readable right) :
    Operates (.node (.binary operator left right)) (SyntaxTree.node (.binary operator left right)).tokens
      operator.power := by
  intro budget minimum rest start holds reads enough closes order met
  have bound : operator.power ≤ Operator.leadingPower := Nat.le_of_lt operator.power_le
  rw [SyntaxTree.tokens, List.append_assoc, List.cons_append] at reads enough
  have own : Closes (max operator.power left.power) (.operator operator.spelt ::
      (TokenKind.operand (operator.power + 1) right right.tokens ++ rest)) := by
    refine ⟨by simp [next], operator_completes operator, ?_⟩
    exact (tighter_spelt _ operator).trans (if_pos (Nat.le_max_left _ _))
  apply operates_operand (by omega) formed readable budget minimum _ start holds reads enough own
    (Nat.lt_of_lt_of_le order (Nat.le_max_left _ _))
  intro first middle more held passed room
  rw [List.length_append, List.length_cons] at enough
  rw [List.length_cons, List.length_append] at room
  obtain ⟨more, rfl⟩ : ∃ less, more = less + 1 := ⟨more - 1, by omega⟩
  unfold binaries
  rw [yields_bind, yields_current, kind_of_cons passed.reads, tighter_spelt,
    if_neg (Nat.not_le_of_lt order)]
  simp only
  rw [yields_bind]
  apply yields_past passed.reads
  intro behind second
  rw [yields_bind, yields_stay second.reads, yields_bind]
  apply (returns_operand bound formed' readable' (by omega) closes behind second.reads).weaken
  rintro _ read ⟨other, rfl, otherHeld, third⟩
  simp only
  rw [yields_bind]
  apply yields_made third.reads
  intro node final fourth found
  have steps := (second.trans third).trans fourth
  refine met node final more ?_ (passed.trans steps) (by omega)
  exact Arena.has_tree_node found
    (.binary (held.later steps.keeps) (otherHeld.later fourth.keeps)) rfl rfl

/-- What is read as an operand is read as a whole expression. -/
theorem Readable.of_trails
    (trails : ∀ budget, Trails budget tree tree.tokens (Operator.leadingPower + 2 ≤ tree.power)) :
    Readable tree :=
  ⟨fun _ => trails, operates_of_trails trails⟩

/-- Every expression is read back from its tokens. -/
theorem readable_of_expression (formed : tree.IsExpression) : Readable tree := by
  induction formed with
  | @literal value _ =>
      exact .of_trails fun budget => trails_of_returns fun _ _ _ _ => by
        rw [SyntaxTree.tokens]
        exact returns_literal value
  | @member name _ =>
      exact .of_trails fun budget => trails_of_returns fun _ _ noCall _ => by
        rw [SyntaxTree.tokens]
        exact returns_member name noCall
  | call _ each readable =>
      exact .of_trails fun budget => trails_of_returns fun _ room _ _ =>
        returns_call each readable room
  | construct _ each readable =>
      exact .of_trails fun budget => trails_of_returns fun _ room _ _ =>
        returns_construct each readable room
  | newArray _ _ readable =>
      exact .of_trails fun budget => trails_of_returns fun _ room _ _ =>
        returns_new_array readable room
  | @cast target inner typed formed readable =>
      apply Readable.of_trails
      intro budget
      apply trails_of_returns
      intro rest room noCall complete
      have loose : ¬ Operator.leadingPower + 2 ≤ (SyntaxTree.node (.cast target inner none)).power := by
        simp [SyntaxTree.power]
      exact returns_cast typed formed readable room noCall (complete.resolve_left loose)
  | memberAccess formed _ readable =>
      exact .of_trails fun budget => trails_member_access formed readable budget _
  | indexAccess formed _ readable inside =>
      exact .of_trails fun budget => trails_index_access formed readable inside budget _
  | @binary operator left right formed formed' readable readable' =>
      refine ⟨fun tight => ?_, operates_binary formed readable formed' readable'⟩
      exact absurd operator.power_le (Nat.not_lt_of_lt tight)
  | @unary operator operand formed readable =>
      apply Readable.of_trails
      intro budget
      cases leading : operator.isLeading with
      | false => exact trails_step leading formed readable budget _
      | true =>
          apply trails_of_returns
          intro rest room noCall complete
          have loose : ¬ Operator.leadingPower + 2 ≤
              (SyntaxTree.node (.unary operator operand)).power := by
            simp [SyntaxTree.power, leading]
          exact returns_leading leading formed readable room noCall (complete.resolve_left loose)

end ModuleLang.Parser
