import ModuleLang.Parsing.Expression
import ModuleLang.Proofs.RoundTrip.Type

/-!
Operations. The parser reads an operand, what is written behind it, and then
operators as long as they bind tightly enough. The operand is the innermost left part
of a tree, and what is read then builds the parts around it, one after the other. So
it is said of a tree that reading its tokens comes to the place behind it with the
tree read, and the rest of the loop is left open.
-/

namespace ModuleLang

namespace TokenKind

/-- Tokens that go on with the operand in front of them. -/
def continuesOperand : TokenKind → Bool
  | punctuation .dot | punctuation .openBracket => true
  | operator spelt => (UnaryOperator.trailing? spelt).isSome
  | _ => false

/-- No expression whose operators bind tighter than `minimum` goes on here. -/
structure Closes (minimum : Nat) (kinds : List TokenKind) : Prop where
  noCall : next kinds ≠ .punctuation .openParen
  complete : continuesOperand (next kinds) = false
  loose : Parser.tighter? minimum (next kinds) = none

end TokenKind

namespace Parser

open ParserState TokenKind

theorem tighter_eq (minimum : Nat) (spelt : Operator) :
    tighter? minimum (.operator spelt) = spelt.bindingPower?.bind fun power =>
      if power ≤ minimum then none
      else (BinaryOperator.ofOperator? spelt).map fun operator => (operator, power) := by
  cases spelt <;> rfl

theorem tighter_spelt (minimum : Nat) (operator : BinaryOperator) :
    tighter? minimum (.operator operator.spelt) =
      if operator.power ≤ minimum then none else some (operator, operator.power) := by
  rw [tighter_eq, operator.binding_power_spelt, Option.bind_some, operator.of_operator_spelt]
  rfl

theorem tighter_mono {minimum more : Nat} {kind : TokenKind} (order : minimum ≤ more)
    (loose : tighter? minimum kind = none) : tighter? more kind = none := by
  cases kind with
  | operator spelt =>
      rw [tighter_eq] at *
      cases known : spelt.bindingPower? with
      | none => rfl
      | some power =>
          rw [known, Option.bind_some] at loose
          rw [Option.bind_some]
          by_cases least : power ≤ minimum
          · rw [if_pos (Nat.le_trans least order)]
          · rw [if_neg least] at loose
            rw [loose]
            exact ite_self none
  | _ => rfl

/-- Nothing binds tighter than an operator in front of its operand. -/
theorem tighter_of_leading {minimum : Nat} (order : Operator.leadingPower ≤ minimum)
    (kind : TokenKind) : tighter? minimum kind = none := by
  cases kind with
  | operator spelt =>
      rw [tighter_eq]
      cases known : spelt.bindingPower? with
      | none => rfl
      | some power =>
          have bound := Operator.bindingPower_lt_leadingPower known
          rw [Option.bind_some, if_pos (Nat.le_of_lt (Nat.lt_of_lt_of_le bound order))]
  | _ => rfl

theorem Closes.mono {minimum more : Nat} {kinds : List TokenKind} (closes : Closes minimum kinds)
    (order : minimum ≤ more) : Closes more kinds :=
  ⟨closes.noCall, closes.complete, tighter_mono order closes.loose⟩

variable {kinds rest : List TokenKind} {start : ParserState} {budget minimum : Nat}

/-- An operand and what is written behind it. -/
def trailed (expression : (minimum : Nat) → Parser (Option NodeId)) (place : Position) :
    Parser (Option NodeId) := do
  let some first ← operand expression | return none
  trailing expression (← remaining) place first

/-- An operation goes on with operators behind an operand. -/
theorem yields_operation {expression : (minimum : Nat) → Parser (Option NodeId)}
    {holds : Option NodeId → ParserState → Prop}
    (met : Yields (trailed expression start.here) start fun result middle =>
      match result with
      | none => holds none middle
      | some left => ∀ budget, budget = middle.remaining →
          Yields (binaries expression minimum budget start.here left) middle holds) :
    Yields (operation expression minimum) start holds := by
  unfold operation
  unfold trailed at met
  rw [yields_bind] at met
  rw [yields_bind, yields_current, yields_bind]
  refine met.weaken fun result middle held => ?_
  cases result with
  | none => exact held
  | some first =>
      simp only at held ⊢
      rw [yields_bind, yields_remaining] at held ⊢
      rw [yields_bind]
      refine held.weaken fun result last held => ?_
      cases result with
      | none => exact held
      | some left => exact held _ rfl

/-- Reading from the tokens of a tree comes to where what may be written behind an
operand is looked for, with the tree read. A tree that holds together as tightly as
an operand may have such things behind it. -/
def Trails (budget : Nat) (tree : SyntaxTree) (tokens : List TokenKind) (tight : Prop) : Prop :=
  ∀ (rest : List TokenKind) (start : ParserState) (place : Position)
    (holds : Option NodeId → ParserState → Prop), start.Reads (tokens ++ rest) →
    (tokens ++ rest).length ≤ budget → next rest ≠ .punctuation .openParen →
    (tight ∨ continuesOperand (next rest) = false) →
    (∀ first final more, final.HasTree first tree → start.Continues rest final →
      rest.length < more →
      Yields (trailing (expressionWithin budget) more place first) final holds) →
    Yields (trailed (expressionWithin budget) place) start holds

/-- Reading from the tokens of a tree comes to where an operator behind it is looked
for, with the tree read, as long as no operator there belongs to a part of it. -/
def Operates (tree : SyntaxTree) (tokens : List TokenKind) (power : Nat) : Prop :=
  ∀ (budget minimum : Nat) (rest : List TokenKind) (start : ParserState)
    (holds : Option NodeId → ParserState → Prop), start.Reads (tokens ++ rest) →
    (tokens ++ rest).length ≤ budget → Closes power rest → minimum < power →
    (∀ left final more, final.HasTree left tree → start.Continues rest final →
      rest.length < more →
      Yields (binaries (expressionWithin budget) minimum more start.here left) final holds) →
    Yields (operation (expressionWithin budget) minimum) start holds

/-- Where nothing is written behind an operand, it is complete. -/
theorem yields_trailing_done {expression : (minimum : Nat) → Parser (Option NodeId)}
    {place : Position} {target : NodeId} {holds : Option NodeId → ParserState → Prop}
    (reads : start.Reads kinds) (complete : continuesOperand (next kinds) = false)
    (enough : 0 < budget) (met : holds (some target) start) :
    Yields (trailing expression budget place target) start holds := by
  obtain ⟨budget, rfl⟩ : ∃ less, budget = less + 1 := ⟨budget - 1, by omega⟩
  unfold trailing
  rw [yields_bind, yields_current, kind_of_reads reads]
  split
  · rename_i dot
    rw [dot] at complete
    cases complete
  · rename_i bracket
    rw [bracket] at complete
    cases complete
  · rename_i spelt isOperator
    rw [isOperator, continuesOperand] at complete
    rw [Option.isSome_eq_false_iff, Option.isNone_iff_eq_none] at complete
    rw [complete]
    exact met
  · exact met

theorem yields_binaries_done {expression : (minimum : Nat) → Parser (Option NodeId)}
    {place : Position} {left : NodeId} {holds : Option NodeId → ParserState → Prop}
    (reads : start.Reads kinds) (loose : tighter? minimum (next kinds) = none)
    (enough : 0 < budget) (met : holds (some left) start) :
    Yields (binaries expression minimum budget place left) start holds := by
  obtain ⟨budget, rfl⟩ : ∃ less, budget = less + 1 := ⟨budget - 1, by omega⟩
  unfold binaries
  rw [yields_bind, yields_current, kind_of_reads reads, loose]
  exact met

/-- A tree that is read as an operand is an operation without operators. -/
theorem operates_of_trails {tree : SyntaxTree} {tokens : List TokenKind} {power : Nat}
    {tight : Prop} (trails : ∀ budget, Trails budget tree tokens tight) :
    Operates tree tokens power := by
  intro budget minimum rest start holds reads enough closes _ met
  refine yields_operation (trails budget rest start _ _ reads enough closes.noCall
    (Or.inr closes.complete) fun first final more held continues room => ?_)
  refine yields_trailing_done continues.reads closes.complete (by omega) ?_
  rintro _ rfl
  exact met first final _ held continues (length_of_reads continues.reads)

/-- A whole expression, up to where it cannot go on. -/
theorem returns_of_operates {tree : SyntaxTree} {tokens : List TokenKind} {power : Nat}
    (operates : Operates tree tokens power) (enough : (tokens ++ rest).length < budget)
    (closes : Closes minimum rest) (order : minimum < power) :
    Returns (expressionWithin budget minimum) tree tokens rest := by
  intro start reads
  obtain ⟨budget, rfl⟩ : ∃ less, budget = less + 1 := ⟨budget - 1, by omega⟩
  unfold expressionWithin
  refine operates budget minimum rest start _ reads (by omega)
    (Closes.mono closes (Nat.le_of_lt order)) order fun left final more held continues room => ?_
  exact yields_binaries_done continues.reads closes.loose (by omega) ⟨left, rfl, held, continues⟩

/-- An operand that is read by itself. -/
theorem trails_of_returns {tree : SyntaxTree} {tokens : List TokenKind} {tight : Prop}
    (returns : ∀ rest, (tokens ++ rest).length ≤ budget → next rest ≠ .punctuation .openParen →
      (tight ∨ continuesOperand (next rest) = false) →
      Returns (operand (expressionWithin budget)) tree tokens rest) :
    Trails budget tree tokens tight := by
  intro rest start place holds reads enough noCall complete met
  unfold trailed
  rw [yields_bind]
  refine (returns rest enough noCall complete start reads).weaken ?_
  rintro _ final ⟨first, rfl, held, continues⟩
  simp only
  rw [yields_bind, yields_remaining]
  exact met first final _ held continues (length_of_reads continues.reads)

end Parser

end ModuleLang

/-!
Operands: what an expression may begin with. In front of a parenthesis a cast is
tried first, which fails on an expression in parentheses, since that does not begin
with a type and a closing parenthesis.
-/

namespace ModuleLang.Parser

open ParserState TokenKind

variable {kinds rest : List TokenKind} {start : ParserState} {budget : Nat}

/-- A tree whose tokens are read back as this tree. -/
structure Readable (tree : SyntaxTree) : Prop where
  trails : Operator.leadingPower < tree.power → ∀ budget,
    Trails budget tree tree.tokens (Operator.leadingPower + 2 ≤ tree.power)
  operates : Operates tree tree.tokens tree.power

theorem power_pos (tree : SyntaxTree) : 0 < tree.power := by
  unfold SyntaxTree.power
  split
  · rename_i operator _ _
    cases operator <;> decide
  · split <;> decide
  · decide
  · decide

theorem closes_paren (minimum : Nat) (kinds : List TokenKind) :
    Closes minimum (.punctuation .closeParen :: kinds) :=
  ⟨nofun, rfl, rfl⟩

theorem closes_comma (minimum : Nat) (kinds : List TokenKind) :
    Closes minimum (.punctuation .comma :: kinds) :=
  ⟨nofun, rfl, rfl⟩

theorem closes_bracket (minimum : Nat) (kinds : List TokenKind) :
    Closes minimum (.punctuation .closeBracket :: kinds) :=
  ⟨nofun, rfl, rfl⟩

/-- A whole expression, where nothing goes on with it. -/
theorem Readable.returns {tree : SyntaxTree} (readable : Readable tree)
    (enough : (tree.tokens ++ rest).length < budget) (closes : Closes 0 rest) :
    Returns (expressionWithin budget 0) tree tree.tokens rest :=
  returns_of_operates readable.operates enough closes (power_pos tree)

/-- Trees of some nodes, in order. -/
abbrev HaveTrees (state : ParserState) (nodes : List NodeId) (trees : List SyntaxTree) : Prop :=
  List.Forall₂ state.HasTree nodes trees

theorem HaveTrees.later {before after : ParserState} {nodes : List NodeId}
    {trees : List SyntaxTree} (held : HaveTrees before nodes trees) (keeps : before.Keeps after) :
    HaveTrees after nodes trees :=
  held.imp fun _ _ holds => holds.later keeps

theorem intercalate_cons (mark : TokenKind) (first second : List TokenKind)
    (others : List (List TokenKind)) :
    [mark].intercalate (first :: second :: others) =
      first ++ mark :: [mark].intercalate (second :: others) := by
  rw [List.intercalate_cons_cons, List.append_assoc, List.singleton_append]

theorem separated_cons (first second : List TokenKind) (others : List (List TokenKind)) :
    separated (first :: second :: others) =
      first ++ .punctuation .comma :: separated (second :: others) :=
  intercalate_cons _ first second others

/-- There is a mark in front of each member but the first. -/
theorem length_intercalate (mark : TokenKind) (members : List (List TokenKind)) :
    members.length ≤ ([mark].intercalate members).length + 1 := by
  induction members with
  | nil => exact Nat.zero_le _
  | cons first members ih =>
      cases members with
      | nil => exact Nat.le_add_left 1 _
      | cons second members =>
          rw [intercalate_cons]
          simp only [List.length_append, List.length_cons] at ih ⊢
          omega

theorem length_separated (members : List (List TokenKind)) :
    members.length ≤ (separated members).length + 1 :=
  length_intercalate _ members

/-- A list begins like its first member. -/
theorem begins_separated {first : SyntaxTree} {others : List SyntaxTree}
    (begins : ∀ item ∈ first :: others, BeginsExpression item.tokens) :
    BeginsExpression (separated ((first :: others).map SyntaxTree.tokens)) := by
  have own := begins first List.mem_cons_self
  cases others with
  | nil => simpa [separated] using own
  | cons second others =>
      rw [List.map_cons, List.map_cons, separated_cons]
      exact own.append _

theorem not_closed_of_begins {kinds : List TokenKind} (begins : BeginsExpression kinds)
    (rest : List TokenKind) : next (kinds ++ rest) ≠ .punctuation .closeParen := by
  intro close
  have opens := (begins.append rest).next
  rw [close] at opens
  cases opens

section Productions

theorem reproduces_arguments_from {trees : List SyntaxTree} {tree : SyntaxTree} {more : Nat}
    {found : List NodeId} {before : List SyntaxTree}
    (readable : ∀ argument ∈ tree :: trees, Readable argument) {start : ParserState}
    (held : HaveTrees start found before)
    (reads : start.Reads (separated ((tree :: trees).map SyntaxTree.tokens) ++
      .punctuation .closeParen :: rest))
    (room : (separated ((tree :: trees).map SyntaxTree.tokens) ++
      .punctuation .closeParen :: rest).length < budget)
    (enough : trees.length < more) :
    Yields (argumentsFrom (expressionWithin budget) more found) start fun result final =>
      ∃ nodes, result = some nodes ∧ HaveTrees final nodes (before ++ tree :: trees) ∧
        start.Continues rest final := by
  induction trees generalizing tree more found before start with
  | nil =>
      obtain ⟨more, rfl⟩ : ∃ less, more = less + 1 := ⟨more - 1, by omega⟩
      have own : separated ([tree].map SyntaxTree.tokens) = tree.tokens := by
        simp [separated]
      rw [own] at reads room
      unfold argumentsFrom
      rw [yields_bind]
      refine ((readable tree List.mem_cons_self).returns room (closes_paren 0 rest) start
        reads).weaken ?_
      rintro _ read ⟨argument, rfl, holds, first⟩
      simp only
      rw [yields_bind, yields_stay first.reads, yields_bind]
      refine yields_refused first.reads nofun ?_
      rw [if_neg Bool.false_ne_true, yields_bind]
      refine yields_expected first.reads fun final second => ?_
      refine ⟨_, rfl, ?_, first.trans second⟩
      exact List.rel_append (held.later (first.trans second).keeps)
        (.cons (holds.later second.keeps) .nil)
  | cons second trees ih =>
      obtain ⟨more, rfl⟩ : ∃ less, more = less + 1 := ⟨more - 1, by omega⟩
      rw [List.map_cons, List.map_cons, separated_cons, ← List.map_cons, List.append_assoc,
        List.cons_append] at reads room
      unfold argumentsFrom
      rw [yields_bind]
      refine ((readable tree List.mem_cons_self).returns room (closes_comma 0 _) start
        reads).weaken ?_
      rintro _ read ⟨argument, rfl, holds, first⟩
      simp only
      rw [yields_bind, yields_stay first.reads, yields_bind]
      refine yields_accepted first.reads fun behind comma => ?_
      rw [if_pos rfl, yields_bind, yields_stay comma.reads]
      have passed := first.trans comma
      have joined : HaveTrees behind (found ++ [argument]) (before ++ [tree]) :=
        List.rel_append (held.later passed.keeps) (.cons (holds.later comma.keeps) .nil)
      have less : (separated ((second :: trees).map SyntaxTree.tokens) ++
          .punctuation .closeParen :: rest).length < budget := by
        rw [List.length_append, List.length_cons] at room
        omega
      refine (ih (fun other member => readable other (List.mem_cons_of_mem _ member)) joined
        comma.reads less (by rw [List.length_cons] at enough; omega)).weaken ?_
      rintro _ final ⟨nodes, rfl, all, last⟩
      refine ⟨nodes, rfl, ?_, passed.trans last⟩
      rwa [List.append_assoc, List.singleton_append] at all

theorem reproduces_arguments {trees : List SyntaxTree}
    (formed : ∀ argument ∈ trees, argument.IsExpression)
    (readable : ∀ argument ∈ trees, Readable argument)
    (room : (inParentheses (separated (trees.map SyntaxTree.tokens)) ++ rest).length ≤ budget) :
    Reproduces (arguments (expressionWithin budget)) (fun final nodes => HaveTrees final nodes trees)
      (inParentheses (separated (trees.map SyntaxTree.tokens))) rest := by
  intro start reads
  rw [inParentheses, List.append_assoc, List.cons_append, List.singleton_append] at reads
  rw [inParentheses, List.append_assoc, List.cons_append, List.singleton_append,
    List.length_cons] at room
  unfold arguments
  rw [yields_bind]
  refine yields_accepted reads fun opened first => ?_
  rw [Bool.not_true, if_neg Bool.false_ne_true, yields_bind, yields_stay first.reads, yields_bind]
  cases trees with
  | nil =>
      refine yields_accepted first.reads fun final second => ?_
      exact ⟨[], rfl, .nil, first.trans second⟩
  | cons tree trees =>
      have begins : BeginsExpression (separated ((tree :: trees).map SyntaxTree.tokens)) :=
        begins_separated fun item member => (formed item member).begins
      refine yields_refused first.reads (not_closed_of_begins begins _) ?_
      rw [if_neg Bool.false_ne_true, yields_bind, yields_remaining]
      have long := length_of_reads first.reads
      have commas := length_separated ((tree :: trees).map SyntaxTree.tokens)
      rw [List.length_append] at long
      rw [List.length_map, List.length_cons] at commas
      refine (reproduces_arguments_from readable .nil first.reads (by omega) (by omega)).weaken ?_
      rintro _ final ⟨nodes, rfl, held, last⟩
      exact ⟨nodes, rfl, held, first.trans last⟩

theorem returns_literal (value : Literal) :
    Returns (operand (expressionWithin budget)) (.node (.literal value)) [.literal value] rest := by
  intro start reads
  rw [List.singleton_append] at reads
  unfold operand
  rw [yields_bind, yields_current, kind_of_cons reads]
  simp only
  rw [yields_bind]
  refine yields_past reads fun behind first => ?_
  rw [yields_bind]
  refine yields_made first.reads fun node final second found => ?_
  exact ⟨node, rfl, Arena.has_tree_node found (.literal value) rfl rfl, first.trans second⟩

theorem returns_member (name : String) (noCall : next rest ≠ .punctuation .openParen) :
    Returns (operand (expressionWithin budget)) (.node (.member name)) [.word name] rest := by
  intro start reads
  rw [List.singleton_append] at reads
  unfold operand
  rw [yields_bind, yields_current, kind_of_cons reads]
  simp only
  rw [yields_bind]
  refine yields_past reads fun behind first => ?_
  have absent : behind.context.atPunctuation .openParen = false := by
    rw [ParsingContext.atPunctuation, kind_of_reads first.reads]
    exact beq_eq_false_iff_ne.mpr noCall
  rw [yields_bind, yields_context, absent, if_neg Bool.false_ne_true, yields_bind]
  refine yields_made first.reads fun node final second found => ?_
  exact ⟨node, rfl, Arena.has_tree_node found (.member name) rfl rfl, first.trans second⟩

theorem returns_call {name : String} {arguments : List SyntaxTree}
    (formed : ∀ argument ∈ arguments, argument.IsExpression)
    (readable : ∀ argument ∈ arguments, Readable argument)
    (room : ((SyntaxTree.node (.call name arguments)).tokens ++ rest).length ≤ budget) :
    Returns (operand (expressionWithin budget)) (.node (.call name arguments))
      (SyntaxTree.node (.call name arguments)).tokens rest := by
  intro start reads
  rw [SyntaxTree.tokens, List.cons_append] at reads room
  rw [List.length_cons] at room
  unfold operand
  rw [yields_bind, yields_current, kind_of_cons reads]
  simp only
  rw [yields_bind]
  refine yields_past reads fun behind first => ?_
  have present : behind.context.atPunctuation .openParen = true := by
    rw [ParsingContext.atPunctuation, kind_of_reads first.reads]
    exact beq_self_eq_true _
  rw [yields_bind, yields_context, present, if_pos rfl, yields_bind]
  refine (reproduces_arguments formed readable (by omega) behind first.reads).weaken ?_
  rintro _ closed ⟨nodes, rfl, held, second⟩
  simp only
  rw [yields_bind]
  refine yields_made second.reads fun node final third found => ?_
  refine ⟨node, rfl, ?_, (first.trans second).trans third⟩
  exact Arena.has_tree_node found (.call (held.later third.keeps)) rfl rfl

/-- A type behind `new`: a name without array suffixes. -/
theorem has_type_name {name : String} {node : NodeId}
    (found : start.tree.arena.kind? node = some (.typeRef name [])) :
    start.HasTree node (.node (.typeRef name [])) :=
  Arena.has_tree_node found (.typeRef name []) rfl rfl

theorem returns_construct {name : String} {arguments : List SyntaxTree}
    (formed : ∀ argument ∈ arguments, argument.IsExpression)
    (readable : ∀ argument ∈ arguments, Readable argument)
    (room : ((SyntaxTree.node (.construct (.node (.typeRef name [])) arguments)).tokens ++
      rest).length ≤ budget) :
    Returns (operand (expressionWithin budget))
      (.node (.construct (.node (.typeRef name [])) arguments))
      (SyntaxTree.node (.construct (.node (.typeRef name [])) arguments)).tokens rest := by
  intro start reads
  have tokens : (SyntaxTree.node (.construct (.node (.typeRef name [])) arguments)).tokens ++ rest =
      .keyword .newWord :: .word name ::
        (inParentheses (separated (arguments.map SyntaxTree.tokens)) ++ rest) := by
    simp [SyntaxTree.tokens]
  rw [tokens] at reads room
  simp only [List.length_cons] at room
  unfold operand
  rw [yields_bind, yields_current, kind_of_cons reads]
  simp only
  unfold construction
  rw [yields_bind, yields_current, yields_bind]
  refine yields_past reads fun behind first => ?_
  rw [yields_bind, yields_current, yields_bind]
  refine yields_named first.reads fun named second => ?_
  simp only
  rw [yields_bind]
  refine yields_made second.reads fun type typed third typeFound => ?_
  rw [yields_bind]
  refine yields_refused third.reads (by simp) ?_
  rw [if_neg Bool.false_ne_true, yields_bind]
  refine (reproduces_arguments formed readable (by omega) typed third.reads).weaken ?_
  rintro _ closed ⟨nodes, rfl, held, fourth⟩
  simp only
  rw [yields_bind]
  refine yields_made fourth.reads fun node final last found => ?_
  refine ⟨node, rfl, ?_, (((first.trans second).trans third).trans fourth).trans last⟩
  have typeHeld := (has_type_name typeFound).later (fourth.trans last).keeps
  exact Arena.has_tree_node found (.construct typeHeld (held.later last.keeps)) rfl rfl

theorem returns_new_array {name : String} {length : SyntaxTree} (readable : Readable length)
    (room : ((SyntaxTree.node (.newArray (.node (.typeRef name [])) length)).tokens ++
      rest).length ≤ budget) :
    Returns (operand (expressionWithin budget))
      (.node (.newArray (.node (.typeRef name [])) length))
      (SyntaxTree.node (.newArray (.node (.typeRef name [])) length)).tokens rest := by
  intro start reads
  have tokens : (SyntaxTree.node (.newArray (.node (.typeRef name [])) length)).tokens ++ rest =
      .keyword .newWord :: .word name :: .punctuation .openBracket ::
        (length.tokens ++ .punctuation .closeBracket :: rest) := by
    simp [SyntaxTree.tokens, inBrackets]
  rw [tokens] at reads room
  simp only [List.length_cons] at room
  unfold operand
  rw [yields_bind, yields_current, kind_of_cons reads]
  simp only
  unfold construction
  rw [yields_bind, yields_current, yields_bind]
  refine yields_past reads fun behind first => ?_
  rw [yields_bind, yields_current, yields_bind]
  refine yields_named first.reads fun named second => ?_
  simp only
  rw [yields_bind]
  refine yields_made second.reads fun type typed third typeFound => ?_
  rw [yields_bind]
  refine yields_accepted third.reads fun opened fourth => ?_
  rw [if_pos rfl, yields_bind]
  refine (readable.returns (by omega) (closes_bracket 0 rest) opened fourth.reads).weaken ?_
  rintro _ read ⟨inner, rfl, held, fifth⟩
  simp only
  rw [yields_bind]
  refine yields_expected fifth.reads fun closed sixth => ?_
  rw [yields_bind]
  refine yields_made sixth.reads fun node final last found => ?_
  have behindType := ((fourth.trans fifth).trans sixth).trans last
  refine ⟨node, rfl, ?_, ((first.trans second).trans third).trans behindType⟩
  have typeHeld := (has_type_name typeFound).later behindType.keeps
  exact Arena.has_tree_node found
    (.newArray typeHeld (held.later (sixth.trans last).keeps)) rfl rfl

/-- In parentheses, what does not begin with a type is not tried as a cast for long. -/
theorem fails_cast (plain : NoType kinds) :
    Fails (cast (expressionWithin budget)) (.punctuation .openParen :: kinds) := by
  intro start reads
  unfold cast
  rw [yields_bind, yields_current, yields_bind]
  apply yields_past reads
  intro behind first
  rw [yields_bind]
  apply yields_no_type plain first.reads
  · intro final keeps recorded
    exact ⟨rfl, first.keeps.trans keeps, recorded⟩
  · rintro node typed rest ⟨-, notClose, -⟩ second
    simp only
    rw [yields_bind]
    apply yields_refused second.reads notClose
    exact ⟨rfl, (first.trans second).keeps, second.reads.recorded⟩

end Productions

end ModuleLang.Parser
