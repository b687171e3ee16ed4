import ModuleLang.Proofs.RoundTrip.Statement

/-!
Statements with bodies. A simple statement takes the semicolon behind it, and one that
ends with a body leaves it to the block, which passes over it. Either way a block goes
on with the statement behind. So statements are read back at any depth, by induction
on them.
-/

namespace ModuleLang

namespace TokenKind

/-- Tokens that a statement may begin with. -/
def beginsStatement : TokenKind → Bool
  | punctuation .closeBrace | endOfStatement | endOfFile => false
  | _ => true

/-- Tokens that begin as a statement does. -/
def BeginsStatement (kinds : List TokenKind) : Prop :=
  ∃ first more, kinds = first :: more ∧ beginsStatement first = true

theorem BeginsExpression.statement {kinds : List TokenKind} (begins : BeginsExpression kinds) :
    BeginsStatement kinds := by
  rcases begins with ⟨first, more, same, begins⟩
  refine ⟨first, more, same, ?_⟩
  cases first with
  | punctuation mark => cases mark <;> first | rfl | cases begins
  | keyword | word | literal | operator => rfl
  | _ => cases begins

theorem BeginsStatement.append {kinds : List TokenKind} (begins : BeginsStatement kinds)
    (rest : List TokenKind) : BeginsStatement (kinds ++ rest) := by
  rcases begins with ⟨first, more, rfl, begins⟩
  exact ⟨first, more ++ rest, rfl, begins⟩

/-- Tokens of the statements in a block. -/
def ofStatements (statements : List SyntaxTree) : List TokenKind :=
  statements.flatMap fun statement => statement.tokens ++ [.endOfStatement]

theorem of_statements_cons (first : SyntaxTree) (statements : List SyntaxTree)
    (rest : List TokenKind) : ofStatements (first :: statements) ++ rest =
      first.tokens ++ .endOfStatement :: (ofStatements statements ++ rest) := by
  simp [ofStatements]

end TokenKind

namespace SyntaxTree

open TokenKind

theorem tokens_of_body (statements : List SyntaxTree) (rest : List TokenKind) :
    (SyntaxTree.node (.body statements)).tokens ++ rest =
      .punctuation .openBrace :: (ofStatements statements ++ .punctuation .closeBrace :: rest) := by
  rw [tokens]
  simp [ofStatements]

theorem tokens_of_loop (predicate block : SyntaxTree) :
    (SyntaxTree.node (.loop predicate block)).tokens =
      .keyword .whileWord :: (inParentheses predicate.tokens ++ block.tokens) := by
  rw [tokens, List.cons_append]

theorem tokens_of_condition (predicate block : SyntaxTree) :
    (SyntaxTree.node (.condition predicate block none)).tokens =
      .keyword .ifWord :: (inParentheses predicate.tokens ++ block.tokens) := by
  simp [tokens]

theorem tokens_of_condition_else (predicate block other : SyntaxTree) :
    (SyntaxTree.node (.condition predicate block (some other))).tokens =
      .keyword .ifWord :: (inParentheses predicate.tokens ++
        (block.tokens ++ .keyword .elseWord :: other.tokens)) := by
  simp [tokens]

theorem IsStatement.begins {tree : SyntaxTree} (formed : tree.IsStatement) :
    BeginsStatement tree.tokens := by
  cases formed with
  | definition typed | define typed =>
      rcases typed with ⟨-, -⟩
      simp only [tokens, List.cons_append]
      exact ⟨_, _, rfl, rfl⟩
  | assign left =>
      rw [tokens]
      exact left.begins.statement.append _
  | evaluate formed => exact formed.begins.statement
  | returnFrom | breakLoop | continueLoop | block | condition | loop =>
      rw [tokens.eq_def]
      exact ⟨_, _, rfl, rfl⟩

end SyntaxTree

namespace Parser

open ParserState TokenKind

variable {kinds rest : List TokenKind} {start : ParserState} {limit more : Nat}
  {statement : Parser (Option NodeId)}

/-- A statement in front of not too many tokens is read back, either with the semicolon
behind it or up to there. -/
def Rereads (statement : Parser (Option NodeId)) (limit : Nat) (tree : SyntaxTree) : Prop :=
  ∀ rest : List TokenKind, (tree.tokens ++ .endOfStatement :: rest).length ≤ limit →
    Returns statement tree (tree.tokens ++ [.endOfStatement]) rest ∨
      Returns statement tree tree.tokens (.endOfStatement :: rest)

section Block

variable {failing : Bool} {found : List NodeId} {holds : List NodeId → ParserState → Prop}

theorem yields_block_closed (reads : start.Reads (.punctuation .closeBrace :: rest))
    (met : ∀ final, start.Continues rest final → holds found final) :
    Yields (blockFrom statement (more + 1) failing found) start holds := by
  unfold blockFrom
  rw [yields_bind, yields_stay reads, yields_bind]
  apply yields_accepted reads
  intro final closed
  exact met final closed

theorem yields_block_semicolon (reads : start.Reads (.endOfStatement :: rest))
    (met : ∀ middle, start.Continues rest middle →
      Yields (blockFrom statement more failing found) middle holds) :
    Yields (blockFrom statement (more + 1) failing found) start holds := by
  unfold blockFrom
  rw [yields_bind, yields_stay reads, yields_bind]
  apply yields_refused reads (by simp [next])
  rw [if_neg Bool.false_ne_true, yields_bind, yields_current, kind_of_cons reads]
  simp only
  rw [yields_bind]
  exact yields_past reads met

theorem yields_block_statement {tree : SyntaxTree} {tokens : List TokenKind}
    (returns : Returns statement tree tokens rest) (begins : BeginsStatement tokens)
    (reads : start.Reads (tokens ++ rest))
    (met : ∀ node middle, middle.HasTree node tree → start.Continues rest middle →
      Yields (blockFrom statement more false (found ++ [node])) middle holds) :
    Yields (blockFrom statement (more + 1) failing found) start holds := by
  have taken : Yields (attempt statement) start fun result middle =>
      ∃ node, result = some node ∧ middle.HasTree node tree ∧ start.Continues rest middle := by
    apply yields_taken returns reads fun _ _ _ => has_tree_same_tree
    intro node middle held continues
    exact ⟨node, rfl, held, continues⟩
  rcases begins with ⟨first, others, rfl, begins⟩
  have own : start.context.current.kind = first := kind_of_reads reads
  unfold blockFrom
  rw [yields_bind, yields_stay reads, yields_bind]
  apply yields_refused reads
  · rintro close
    rw [show first = .punctuation .closeBrace from close] at begins
    cases begins
  rw [if_neg Bool.false_ne_true, yields_bind, yields_current, own]
  split
  · cases begins
  · cases begins
  · rw [yields_bind]
    apply taken.weaken
    rintro _ middle ⟨node, rfl, held, continues⟩
    exact met node middle held continues

end Block

/-- The statements of a block, one after the other. -/
theorem yields_block_read {statements before : List SyntaxTree} {failing : Bool}
    {found : List NodeId} (formed : ∀ item ∈ statements, item.IsStatement)
    (each : ∀ item ∈ statements, Rereads statement limit item)
    (held : HaveTrees start found before)
    (reads : start.Reads (ofStatements statements ++ .punctuation .closeBrace :: rest))
    (room : (ofStatements statements ++ .punctuation .closeBrace :: rest).length ≤ limit)
    (enough : (ofStatements statements).length < more) :
    Yields (blockFrom statement more failing found) start fun result final =>
      HaveTrees final result (before ++ statements) ∧ start.Continues rest final := by
  induction statements generalizing start more before failing found with
  | nil =>
      obtain ⟨more, rfl⟩ : ∃ less, more = less + 1 := ⟨more - 1, by omega⟩
      apply yields_block_closed reads
      intro final closed
      rw [List.append_nil]
      exact ⟨held.later closed.keeps, closed⟩
  | cons first statements ih =>
      have begins := (formed first List.mem_cons_self).begins
      have later : ∀ item ∈ statements, item.IsStatement :=
        fun other member => formed other (List.mem_cons_of_mem _ member)
      have laterEach : ∀ item ∈ statements, Rereads statement limit item :=
        fun other member => each other (List.mem_cons_of_mem _ member)
      have positive : 0 < first.tokens.length := by
        rcases begins with ⟨_, _, same, -⟩
        rw [same]
        exact Nat.succ_pos _
      rw [of_statements_cons] at reads room
      have whole := congrArg List.length (of_statements_cons first statements [])
      simp only [List.append_nil, List.length_append, List.length_cons] at whole
      have less : (ofStatements statements ++ .punctuation .closeBrace :: rest).length ≤ limit := by
        rw [List.length_append, List.length_cons] at room
        omega
      obtain ⟨more, rfl⟩ : ∃ less, more = less + 2 := ⟨more - 2, by omega⟩
      have joined : ∀ {node : NodeId} {middle : ParserState} {kinds : List TokenKind},
          middle.HasTree node first → start.Continues kinds middle →
          HaveTrees middle (found ++ [node]) (before ++ [first]) :=
        fun has continues => List.rel_append (held.later continues.keeps) (.cons has .nil)
      rcases each first List.mem_cons_self _ room with returns | returns
      · apply yields_block_statement returns (begins.append _) (by simpa using reads)
        intro node middle has continues
        apply (ih later laterEach (joined has continues) continues.reads less (by omega)).weaken
        rintro nodes final ⟨all, last⟩
        rw [List.append_assoc, List.singleton_append] at all
        exact ⟨all, continues.trans last⟩
      · apply yields_block_statement returns begins reads
        intro node middle has continues
        apply yields_block_semicolon continues.reads
        intro passed semicolon
        apply (ih later laterEach ((joined has continues).later semicolon.keeps) semicolon.reads less
          (by omega)).weaken
        rintro nodes final ⟨all, last⟩
        rw [List.append_assoc, List.singleton_append] at all
        exact ⟨all, (continues.trans semicolon).trans last⟩

section Body

variable {statements : List SyntaxTree}

theorem returns_block (formed : ∀ item ∈ statements, item.IsStatement)
    (each : ∀ item ∈ statements, Rereads statement limit item)
    (room : ((SyntaxTree.node (.body statements)).tokens ++ rest).length ≤ limit + 1) :
    Returns (block statement) (.node (.body statements))
      (SyntaxTree.node (.body statements)).tokens rest := by
  intro start reads
  rw [SyntaxTree.tokens_of_body] at reads room
  rw [List.length_cons] at room
  unfold block
  rw [yields_bind, yields_current, yields_bind]
  apply yields_past reads
  intro opened first
  rw [yields_bind, yields_remaining, yields_bind]
  have long := length_of_reads first.reads
  rw [List.length_append] at long
  apply (yields_block_read formed each .nil first.reads (by omega) (by omega)).weaken
  rintro nodes closed ⟨held, second⟩
  rw [List.nil_append] at held
  rw [yields_bind]
  apply yields_made second.reads
  intro node final third found
  refine ⟨node, rfl, ?_, (first.trans second).trans third⟩
  exact Arena.has_tree_node found (.body (held.later third.keeps)) rfl rfl

/-- Looking ahead over line ends moves nowhere in a row of tokens. -/
theorem ahead_of_reads (reads : start.Reads kinds) :
    start.context.fork.skipLines = start.context.fork :=
  skip_lines_stays (reads_fork reads)

theorem merged_of_reads (reads : start.Reads kinds) :
    start.context.merge start.context.fork.skipLines = start.context :=
  (merge_fork_skip_lines reads.shows'.inside).trans (skip_lines_stays reads)

theorem returns_body (formed : ∀ item ∈ statements, item.IsStatement)
    (each : ∀ item ∈ statements, Rereads statement limit item)
    (room : ((SyntaxTree.node (.body statements)).tokens ++ rest).length ≤ limit + 1) :
    Returns (body statement) (.node (.body statements))
      (SyntaxTree.node (.body statements)).tokens rest := by
  intro start reads
  have opens : start.context.fork.skipLines.atPunctuation .openBrace = true := by
    rw [ahead_of_reads reads]
    rw [SyntaxTree.tokens_of_body] at reads
    have own : start.context.fork.current.kind = .punctuation .openBrace := kind_of_cons reads
    rw [ParsingContext.atPunctuation, own]
    rfl
  unfold body
  rw [yields_bind, yields_context]
  simp only
  rw [if_pos opens, merged_of_reads reads, yields_bind, yields_set_context]
  exact returns_block formed each room start reads

variable {predicate : SyntaxTree} {first second : List SyntaxTree}

/-- A keyword, a predicate in parentheses and a block, in front of something else. -/
theorem yields_guarded {holds : Option NodeId → ParserState → Prop} {word : Keyword}
    {next : NodeId → NodeId → Parser (Option NodeId)} (decides : predicate.IsExpression)
    (formed : ∀ item ∈ first, item.IsStatement)
    (each : ∀ item ∈ first, Rereads statement limit item)
    (reads : start.Reads (.keyword word :: (inParentheses predicate.tokens ++
      ((SyntaxTree.node (.body first)).tokens ++ rest))))
    (room : ((SyntaxTree.node (.body first)).tokens ++ rest).length ≤ limit + 1)
    (met : ∀ question block middle, middle.HasTree question predicate →
      middle.HasTree block (.node (.body first)) → start.Continues rest middle →
      Yields (next question block) middle holds) :
    Yields (do
      advance
      let some question ← Parser.predicate | return none
      let some block ← body statement | return none
      next question block) start holds := by
  rw [yields_bind]
  apply yields_past reads
  intro behind keyword
  rw [yields_bind]
  apply (returns_predicate decides behind keyword.reads).weaken
  rintro _ asked ⟨question, rfl, questionHeld, second⟩
  simp only
  rw [yields_bind]
  apply (returns_body formed each room asked second.reads).weaken
  rintro _ middle ⟨block, rfl, blockHeld, third⟩
  exact met question block middle (questionHeld.later third.keeps) blockHeld
    ((keyword.trans second).trans third)

theorem returns_loop (decides : predicate.IsExpression)
    (formed : ∀ item ∈ first, item.IsStatement)
    (each : ∀ item ∈ first, Rereads statement limit item)
    (room : ((SyntaxTree.node (.loop predicate (.node (.body first)))).tokens ++ rest).length ≤
      limit + 1) :
    Returns (whileLoop statement) (.node (.loop predicate (.node (.body first))))
      (SyntaxTree.node (.loop predicate (.node (.body first)))).tokens rest := by
  intro start reads
  rw [SyntaxTree.tokens_of_loop, List.cons_append, List.append_assoc] at reads room
  rw [List.length_cons, List.length_append] at room
  unfold whileLoop
  rw [yields_bind, yields_current]
  apply yields_guarded decides formed each reads (by omega)
  intro question block middle questionHeld blockHeld passed
  rw [yields_bind]
  apply yields_made passed.reads
  intro node final last found
  refine ⟨node, rfl, ?_, passed.trans last⟩
  have blockThere := blockHeld.later last.keeps
  exact Arena.has_tree_node found (.loop (questionHeld.later last.keeps) blockThere) rfl rfl

/-- A condition without an else branch, in front of something else. -/
theorem returns_condition (decides : predicate.IsExpression)
    (formed : ∀ item ∈ first, item.IsStatement)
    (each : ∀ item ∈ first, Rereads statement limit item)
    (ends : next rest ≠ .keyword .elseWord)
    (room : ((SyntaxTree.node (.condition predicate (.node (.body first)) none)).tokens ++
      rest).length ≤ limit + 1) :
    Returns (condition statement)
      (.node (.condition predicate (.node (.body first)) none))
      (SyntaxTree.node (.condition predicate (.node (.body first)) none)).tokens rest := by
  intro start reads
  rw [SyntaxTree.tokens_of_condition, List.cons_append, List.append_assoc] at reads room
  rw [List.length_cons, List.length_append] at room
  unfold condition
  rw [yields_bind, yields_current]
  apply yields_guarded decides formed each reads (by omega)
  intro question block middle questionHeld blockHeld passed
  have other : middle.context.fork.skipLines.atKeyword .elseWord = false := by
    have own : middle.context.fork.current.kind = next rest := kind_of_reads passed.reads
    rw [ahead_of_reads passed.reads, ParsingContext.atKeyword, own]
    exact beq_eq_false_iff_ne.mpr ends
  rw [yields_bind, yields_context]
  simp only
  rw [other, if_neg Bool.false_ne_true, yields_bind]
  apply yields_made passed.reads
  intro node final last found
  refine ⟨node, rfl, ?_, passed.trans last⟩
  have blockThere := blockHeld.later last.keeps
  exact Arena.has_tree_node found
    (.condition (questionHeld.later last.keeps) blockThere .none) rfl rfl

theorem returns_condition_else (decides : predicate.IsExpression)
    (formed : ∀ item ∈ first, item.IsStatement)
    (each : ∀ item ∈ first, Rereads statement limit item)
    (formed' : ∀ item ∈ second, item.IsStatement)
    (each' : ∀ item ∈ second, Rereads statement limit item)
    (room : ((SyntaxTree.node (.condition predicate (.node (.body first))
      (some (.node (.body second))))).tokens ++ rest).length ≤ limit + 1) :
    Returns (condition statement)
      (.node (.condition predicate (.node (.body first)) (some (.node (.body second)))))
      (SyntaxTree.node (.condition predicate (.node (.body first))
        (some (.node (.body second))))).tokens rest := by
  intro start reads
  rw [SyntaxTree.tokens_of_condition_else, List.cons_append, List.append_assoc, List.append_assoc,
    List.cons_append] at reads room
  rw [List.length_cons, List.length_append] at room
  have less : ((SyntaxTree.node (.body second)).tokens ++ rest).length ≤ limit + 1 := by
    rw [List.length_append, List.length_cons] at room
    omega
  unfold condition
  rw [yields_bind, yields_current]
  apply yields_guarded decides formed each reads (by omega)
  intro question block middle questionHeld blockHeld passed
  have here : middle.context.fork.skipLines.atKeyword .elseWord = true := by
    have own : middle.context.fork.current.kind = .keyword .elseWord := kind_of_cons passed.reads
    rw [ahead_of_reads passed.reads, ParsingContext.atKeyword, own]
    rfl
  rw [yields_bind, yields_context]
  simp only
  rw [if_pos here, merged_of_reads passed.reads, yields_bind, yields_set_context, yields_bind]
  apply yields_past passed.reads
  intro behind keyword
  rw [yields_bind]
  apply (returns_body formed' each' less behind keyword.reads).weaken
  rintro _ read ⟨other, rfl, otherHeld, third⟩
  simp only
  rw [yields_bind]
  apply yields_made third.reads
  intro node final last found
  have steps := (keyword.trans third).trans last
  refine ⟨node, rfl, ?_, passed.trans steps⟩
  exact Arena.has_tree_node found (.condition (questionHeld.later steps.keeps)
    (blockHeld.later steps.keeps) (.some (otherHeld.later last.keeps))) rfl rfl

end Body

/-- What does not begin with a keyword or a brace is a simple statement. -/
theorem simple_of_begins {statement : Parser (Option NodeId)} {tree : SyntaxTree}
    {tokens : List TokenKind} (begins : BeginsExpression tokens)
    (returns : Returns simpleStatement tree tokens rest) :
    Returns (anyStatement statement) tree tokens rest := by
  intro start reads
  rcases begins with ⟨first, more, rfl, begins⟩
  have own : start.context.current.kind = first := kind_of_reads reads
  unfold anyStatement
  rw [yields_bind, yields_current, own]
  split
  all_goals first | cases begins | exact returns start reads

/-- A statement is read back at any depth that has room for it. -/
def Restated (tree : SyntaxTree) : Prop :=
  (∀ budget rest, (tree.tokens ++ .endOfStatement :: rest).length < budget →
    Returns (statementWithin budget) tree (tree.tokens ++ [.endOfStatement]) rest) ∨
  ∀ budget rest, (tree.tokens ++ .endOfStatement :: rest).length < budget →
    Returns (statementWithin budget) tree tree.tokens (.endOfStatement :: rest)

theorem Restated.within {tree : SyntaxTree} (restated : Restated tree) (budget : Nat) :
    Rereads (statementWithin budget) (budget - 1) tree := by
  intro rest room
  rw [List.length_append, List.length_cons] at room
  have less : (tree.tokens ++ .endOfStatement :: rest).length < budget := by
    rw [List.length_append, List.length_cons]
    omega
  exact restated.imp (fun returns => returns budget rest less)
    fun returns => returns budget rest less

theorem Restated.anywhere {tree : SyntaxTree} (restated : Restated tree) (limit : Nat) :
    Rereads Parser.statement limit tree := by
  intro rest _
  rcases restated with returns | returns
  · apply Or.inl
    intro start reads
    unfold Parser.statement
    rw [yields_bind, yields_remaining]
    have room := length_of_reads reads
    rw [List.append_assoc, List.singleton_append] at room
    exact returns _ rest room start reads
  · apply Or.inr
    intro start reads
    unfold Parser.statement
    rw [yields_bind, yields_remaining]
    exact returns _ rest (length_of_reads reads) start reads

/-- A statement that takes its semicolon. -/
theorem restated_ended {tree : SyntaxTree}
    (returns : ∀ budget rest,
      Returns (anyStatement (statementWithin budget)) tree (tree.tokens ++ [.endOfStatement]) rest) :
    Restated tree := by
  apply Or.inl
  intro budget rest room
  obtain ⟨budget, rfl⟩ : ∃ less, budget = less + 1 := ⟨budget - 1, by omega⟩
  exact returns budget rest

/-- A statement that ends with a body. -/
theorem restated_open {tree : SyntaxTree}
    (returns : ∀ budget rest, (tree.tokens ++ .endOfStatement :: rest).length ≤ budget →
      Returns (anyStatement (statementWithin budget)) tree tree.tokens (.endOfStatement :: rest)) :
    Restated tree := by
  apply Or.inr
  intro budget rest room
  obtain ⟨budget, rfl⟩ : ∃ less, budget = less + 1 := ⟨budget - 1, by omega⟩
  exact returns budget rest (Nat.le_of_lt_succ room)

theorem restated_simple {tree : SyntaxTree} (begins : BeginsExpression tree.tokens)
    (returns : ∀ rest, Returns simpleStatement tree (tree.tokens ++ [.endOfStatement]) rest) :
    Restated tree :=
  restated_ended fun _ rest => simple_of_begins (begins.append _) (returns rest)

theorem begins_type {type : SyntaxTree} (typed : type.IsType) : BeginsExpression type.tokens := by
  rcases typed with ⟨-, -⟩
  rw [tokens_of_type]
  exact ⟨_, _, rfl, rfl⟩

/-- Every statement is read back from its tokens and the semicolon behind them. -/
theorem restated_of_statement {tree : SyntaxTree} (formed : tree.IsStatement) : Restated tree := by
  induction formed with
  | definition typed named =>
      apply restated_simple
      · rw [SyntaxTree.tokens]
        exact (begins_type typed).append _
      · intro rest
        exact returns_simple_definition (returns_definition typed)
  | define typed named given =>
      apply restated_simple
      · rw [SyntaxTree.tokens, SyntaxTree.tokens, List.append_assoc]
        exact (begins_type typed).append _
      · intro rest
        exact returns_simple_definition (returns_define typed given)
  | assign left place given =>
      apply restated_simple
      · rw [SyntaxTree.tokens]
        exact left.begins.append _
      · intro rest
        apply returns_simple_assignment _ (returns_assignment left place given)
        rw [SyntaxTree.tokens, List.append_assoc]
        exact left.no_type _ fun _ _ => follows_operator _ _
  | evaluate formed alone =>
      exact restated_simple formed.begins fun rest => returns_simple_expression formed alone
  | @returnFrom given formed =>
      apply restated_ended
      intro budget rest start reads
      have own : start.context.current.kind = .keyword .returnWord := by
        rw [kind_of_reads reads, SyntaxTree.tokens.eq_def]
        rfl
      unfold anyStatement
      rw [yields_bind, yields_current, own]
      cases given with
      | none => exact returns_return_nothing start (by simpa [SyntaxTree.tokens] using reads)
      | some value =>
          exact returns_return_value (formed value rfl) start
            (by simpa [SyntaxTree.tokens] using reads)
  | breakLoop =>
      apply restated_ended
      intro budget rest start reads
      rw [SyntaxTree.tokens] at reads
      unfold anyStatement
      rw [yields_bind, yields_current, kind_of_cons reads]
      exact returns_jump (fun _ => .breakLoop) rfl rfl start reads
  | continueLoop =>
      apply restated_ended
      intro budget rest start reads
      rw [SyntaxTree.tokens] at reads
      unfold anyStatement
      rw [yields_bind, yields_current, kind_of_cons reads]
      exact returns_jump (fun _ => .continueLoop) rfl rfl start reads
  | block formed each =>
      apply restated_open
      intro budget rest room start reads
      have own : start.context.current.kind = .punctuation .openBrace := by
        rw [kind_of_reads reads, SyntaxTree.tokens_of_body]
        rfl
      unfold anyStatement
      rw [yields_bind, yields_current, own]
      exact returns_block formed (fun item member => (each item member).within budget) (by omega)
        start reads
  | @condition predicate first second decides formed formed' each each' =>
      apply restated_open
      intro budget rest room start reads
      have own : start.context.current.kind = .keyword .ifWord := by
        rw [kind_of_reads reads, SyntaxTree.tokens.eq_def]
        rfl
      unfold anyStatement
      rw [yields_bind, yields_current, own]
      have within : ∀ item ∈ first, Rereads (statementWithin budget) (budget - 1) item :=
        fun item member => (each item member).within budget
      have fits : budget ≤ budget - 1 + 1 := by omega
      cases second with
      | none =>
          exact returns_condition decides formed within (by simp [next]) (Nat.le_trans room fits)
            start reads
      | some second =>
          exact returns_condition_else decides formed within (formed' second rfl)
            (fun item member => (each' second rfl item member).within budget)
            (Nat.le_trans room fits) start reads
  | loop decides formed each =>
      apply restated_open
      intro budget rest room start reads
      have own : start.context.current.kind = .keyword .whileWord := by
        rw [kind_of_reads reads, SyntaxTree.tokens.eq_def]
        rfl
      unfold anyStatement
      rw [yields_bind, yields_current, own]
      exact returns_loop decides formed (fun item member => (each item member).within budget)
        (by omega) start reads

end Parser

end ModuleLang
