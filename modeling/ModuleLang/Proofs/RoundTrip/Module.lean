import ModuleLang.Proofs.RoundTrip.Declaration

/-!
The text of a module, read as a whole. Every token of a well-formed tree can be spelled,
so the lexemes of the text are these tokens with blanks in between; and the parser
builds the tree from them, without a report.
-/

namespace ModuleLang

namespace TokenKind

/-- Whether a token can be spelled. -/
def isWritable : TokenKind → Bool
  | word name => isName name
  | literal value => value.isWritable
  | keyword _ | operator _ | punctuation _ | endOfStatement => true
  | _ => false

theorem spelled_of_writable {kind : TokenKind} (writable : kind.isWritable = true) :
    kind.IsSpelled := by
  cases kind with
  | word => exact spelled_name writable
  | literal => exact spelled_literal writable
  | keyword reserved => exact spelled_keyword reserved
  | operator spelt => exact spelled_operator spelt
  | punctuation mark => exact spelled_punctuation mark
  | endOfStatement => exact spelled_end
  | _ => cases writable

/-- Tokens that can be spelled are no blanks and do not end the file. -/
theorem solid_of_writable {kind : TokenKind} (writable : kind.isWritable = true) :
    kind.isTrivia = false ∧ kind ≠ .endOfFile := by
  cases kind <;> first | (cases writable; done) | exact ⟨rfl, by simp⟩

theorem spelled_of_all {kinds : List TokenKind} (writable : kinds.all isWritable = true) :
    AreSpelled kinds := by
  intro kind member
  have own := List.all_eq_true.mp writable kind member
  refine ⟨spelled_of_writable own, ?_⟩
  rintro rfl
  cases own

variable {tokens : List TokenKind} {members : List (List TokenKind)}

theorem all_writable_parentheses :
    (inParentheses tokens).all isWritable = tokens.all isWritable := by
  simp [inParentheses, isWritable]

theorem all_writable_brackets : (inBrackets tokens).all isWritable = tokens.all isWritable := by
  simp [inBrackets, isWritable]

theorem all_writable_intercalate {mark : TokenKind} (writable : mark.isWritable = true)
    (each : ∀ member ∈ members, member.all isWritable = true) :
    ([mark].intercalate members).all isWritable = true := by
  induction members with
  | nil => rfl
  | cons first members ih =>
      have own := each first List.mem_cons_self
      have later := ih fun member inside => each member (List.mem_cons_of_mem _ inside)
      cases members with
      | nil => simpa using own
      | cons second members =>
          rw [Parser.intercalate_cons, List.all_append, List.all_cons, own, writable, later]
          rfl

theorem all_writable_separated {trees : List SyntaxTree}
    (each : ∀ tree ∈ trees, tree.tokens.all isWritable = true) :
    (separated (trees.map SyntaxTree.tokens)).all isWritable = true := by
  apply all_writable_intercalate rfl
  intro member inside
  rcases List.mem_map.mp inside with ⟨tree, held, rfl⟩
  exact each tree held

theorem all_writable_operand {least : Nat} {tree : SyntaxTree} :
    (operand least tree tokens).all isWritable = tokens.all isWritable := by
  unfold operand
  split
  · exact all_writable_parentheses
  · rfl

theorem all_writable_cast {target inner : SyntaxTree} :
    (castOperand target inner tokens).all isWritable = tokens.all isWritable := by
  unfold castOperand
  split
  · exact all_writable_parentheses
  · rfl

theorem all_writable_path {path : ModulePath} (written : path.isWritable = true) :
    (ofPath path).all isWritable = true := by
  apply all_writable_intercalate rfl
  intro member inside
  rcases List.mem_map.mp inside with ⟨segment, held, rfl⟩
  simp only [ModulePath.isWritable, Bool.and_eq_true, List.all_eq_true] at written
  simpa [isWritable] using written.2 segment held

theorem all_writable_flatMap {trees : List SyntaxTree}
    (each : ∀ tree ∈ trees, tree.tokens.all isWritable = true) :
    (trees.flatMap SyntaxTree.tokens).all isWritable = true := by
  rw [List.all_flatMap, List.all_eq_true]
  exact each

end TokenKind

namespace SyntaxTree

open TokenKind

variable {tree : SyntaxTree}

theorem IsType.writable (formed : tree.IsType) : tree.tokens.all isWritable = true := by
  rcases formed with ⟨named, -⟩
  rw [tokens, List.all_cons, List.all_flatMap]
  simp only [all_writable_brackets]
  simp [isWritable, named]

theorem IsExpression.writable (formed : tree.IsExpression) :
    tree.tokens.all isWritable = true := by
  induction formed with
  | literal writable => simpa [tokens, isWritable] using writable
  | member named => simpa [tokens, isWritable] using named
  | call named _ each =>
      rw [tokens, List.all_cons, all_writable_parentheses, all_writable_separated each,
        Bool.and_true]
      exact named
  | construct named _ each =>
      simp [tokens, all_writable_parentheses, all_writable_separated each, isWritable, named]
  | newArray named _ inside =>
      simp [tokens, all_writable_brackets, inside, isWritable, named]
  | cast typed _ inner =>
      rw [tokens, List.all_append, all_writable_parentheses, all_writable_cast, typed.writable,
        inner]
      rfl
  | memberAccess _ named owner =>
      rw [tokens, List.all_append, all_writable_operand, owner]
      simp [isWritable, named]
  | indexAccess _ _ target index =>
      rw [tokens, List.all_append, all_writable_operand, all_writable_brackets, target, index]
      rfl
  | binary _ _ left right =>
      rw [tokens, List.all_append, List.all_cons, all_writable_operand, all_writable_operand, left,
        right]
      rfl
  | unary _ operand =>
      rw [tokens]
      split
      · rw [List.all_cons, all_writable_operand, operand]
        rfl
      · rw [List.all_append, all_writable_operand, operand]
        rfl

theorem writable_of_body {statements : List SyntaxTree}
    (each : ∀ statement ∈ statements, statement.tokens.all isWritable = true) :
    (SyntaxTree.node (.body statements)).tokens.all isWritable = true := by
  rw [tokens, List.cons_append, List.all_cons, List.all_append, List.all_flatMap, Bool.and_eq_true,
    Bool.and_eq_true, List.all_eq_true]
  refine ⟨rfl, ?_, rfl⟩
  intro statement inside
  rw [List.all_append, each statement inside]
  rfl

theorem IsStatement.writable (formed : tree.IsStatement) : tree.tokens.all isWritable = true := by
  induction formed with
  | definition typed named => simp [tokens, typed.writable, isWritable, named]
  | define typed named given => simp [tokens, typed.writable, given.writable, isWritable, named]
  | assign left _ given => simp [tokens, left.writable, given.writable, isWritable]
  | evaluate formed => exact formed.writable
  | @returnFrom value given =>
      cases value with
      | none => simp [tokens, isWritable]
      | some value => simpa [tokens, isWritable] using (given value rfl).writable
  | breakLoop | continueLoop =>
      rw [tokens]
      rfl
  | block _ each => exact writable_of_body each
  | @condition predicate first second decides _ _ each other =>
      cases second with
      | none =>
          rw [Option.map_none, tokens_of_condition, List.all_cons, List.all_append,
            all_writable_parentheses, decides.writable, writable_of_body each]
          rfl
      | some second =>
          rw [Option.map_some, tokens_of_condition_else, List.all_cons, List.all_append,
            List.all_append, List.all_cons, all_writable_parentheses, decides.writable,
            writable_of_body each, writable_of_body (other second rfl)]
          rfl
  | loop decides _ each =>
      rw [tokens_of_loop, List.all_cons, List.all_append, all_writable_parentheses,
        decides.writable, writable_of_body each]
      rfl

theorem IsParameter.writable (formed : tree.IsParameter) : tree.tokens.all isWritable = true := by
  rcases formed with ⟨typed, named⟩
  simp [tokens, typed.writable, isWritable, named]

theorem IsFunction.writable (formed : tree.IsFunction) : tree.tokens.all isWritable = true := by
  rcases formed with @⟨result, name, parameters, statements, typed, named, -, each, formed⟩
  have written : (result.elim [] tokens).all isWritable = true := by
    cases result with
    | none => rfl
    | some type => exact (typed type rfl).writable
  rw [Parser.tokens_of_function, List.all_cons, List.all_append, List.all_cons, List.all_append,
    all_writable_parentheses, written, all_writable_separated fun item member =>
      (each item member).writable, writable_of_body fun item member => (formed item member).writable,
    isWritable, isWritable, named]
  rfl

theorem IsModule.writable (formed : tree.IsModule) : tree.tokens.all isWritable = true := by
  rcases formed with @⟨modules, imports, functions, named, used, each⟩
  have modulesWritten : (modules.flatMap tokens).all isWritable = true := by
    apply all_writable_flatMap
    intro item member
    rcases named item member with ⟨path, written, rfl⟩
    simp [tokens, all_writable_path written, isWritable]
  have importsWritten : (imports.flatMap tokens).all isWritable = true := by
    apply all_writable_flatMap
    intro item member
    rcases used item member with ⟨path, written, rfl⟩
    simp [tokens, all_writable_path written, isWritable]
  have functionsWritten : (functions.flatMap tokens).all isWritable = true :=
    all_writable_flatMap fun item member => (each item member).writable
  rw [tokens, List.all_append, List.all_append, modulesWritten, importsWritten, functionsWritten]
  rfl

end SyntaxTree

namespace ParsedModule

open TokenKind

/-- The text of a tree is a row of its tokens. -/
theorem render_row (tree : SyntaxTree) : tree.render.toList = row tree.tokens := by
  rw [SyntaxTree.render, String.toList_intercalate, row, List.map_map]
  rfl

/-- Reading begins with all tokens of the text in front. -/
theorem reads_initial {kinds : List TokenKind} {text : String}
    (writable : kinds.all isWritable = true) (same : text.toList = row kinds) (fileName : String) :
    ParserState.Reads kinds (.initial (Tokenized.ofText text fileName).sequence fileName) := by
  have tokens := (Tokenized.of_row (spelled_of_all writable) same fileName).1
  rw [List.all_eq_true] at writable
  apply ParserState.reads_of_shown
  apply @Cursor.shows_row _ [] kinds fun kind member => solid_of_writable (writable kind member)
  rw [Tokenized.tokens_of_text]
  simpa using tokens

/-- The text of a well-formed tree is parsed back into the tree, without a report. -/
theorem of_render {tree : SyntaxTree} (formed : tree.IsModule) (fileName : String) :
    ∃ parsed, ofText tree.render fileName = .ok parsed ∧ parsed.diagnostics = [] ∧
      parsed.tree.arena.tree? parsed.root = some tree := by
  have written := formed.writable
  have row := render_row tree
  have reads := reads_initial written row fileName
  have spelled : AreSpelled tree.tokens := spelled_of_all written
  have faultless := (Tokenized.of_row spelled row fileName).2
  rcases yields_iff.mp (Parser.yields_root_read formed reads) with
    ⟨root, final, ran, held, continues⟩
  refine ⟨⟨final.tree, root, (Tokenized.ofText tree.render fileName).diagnostics ++
    final.context.diagnostics, fileName⟩, ?_, ?_, held.found⟩
  · unfold ofText
    simp only [ran]
  · rw [faultless, continues.diagnostics]
    rfl

/-- A module with a definition, an operand in parentheses, a cast and a loop. -/
def sampleTree : SyntaxTree :=
  let name (text : String) : SyntaxTree := .node (.member text)
  let int : SyntaxTree := .node (.typeRef "int" [])
  let sum : SyntaxTree := .node (.binary .plus (name "a") (.node (.literal (.int 1))))
  let product : SyntaxTree := .node (.binary .multiply sum (.node (.unary .negate (name "a"))))
  .node (.root [.node (.moduleDef ⟨["m"]⟩)] [] [.node (.function (some int) "f"
    [.node (.parameter int "a")] (.node (.body [
      .node (.assign .assign (.node (.definition (some int) "x")) product),
      .node (.loop (.node (.binary .less (name "x") (name "a"))) (.node (.body [
        .node (.unary .trailingIncrement (name "x"))]))),
      .node (.returnFrom (some (.node (.cast int (name "x") none))))])))])

theorem sample_is_module : sampleTree.IsModule := by
  have int : SyntaxTree.IsType (.node (.typeRef "int" [])) :=
    .intro (by decide +kernel) (List.forall_mem_nil _)
  have a : SyntaxTree.IsExpression (.node (.member "a")) := .member (by decide +kernel)
  have x : SyntaxTree.IsExpression (.node (.member "x")) := .member (by decide +kernel)
  have product : SyntaxTree.IsExpression (.node (.binary .multiply (.node (.binary .plus
      (.node (.member "a")) (.node (.literal (.int 1))))) (.node (.unary .negate
      (.node (.member "a")))))) :=
    .binary (.binary a (.literal (by decide))) (.unary a)
  refine .intro ?_ (List.forall_mem_nil _) ?_
  · intro item member
    exact ⟨⟨["m"]⟩, by decide +kernel, List.mem_singleton.mp member⟩
  · intro item member
    rw [List.mem_singleton.mp member]
    refine .intro ?_ (by decide +kernel) (by simp) ?_ ?_
    · intro type given
      cases given
      exact int
    · intro item member
      rw [List.mem_singleton.mp member]
      exact .intro int (by decide +kernel)
    · simp only [List.forall_mem_cons]
      refine ⟨.define int (by decide +kernel) product, .loop (.binary x a) ?_, .returnFrom ?_,
        List.forall_mem_nil _⟩
      · intro item member
        rw [List.mem_singleton.mp member]
        exact .evaluate (.unary x) rfl
      · intro value given
        cases given
        exact .cast int x

theorem of_render_sample : sampleTree.IsModule ∧ ∃ parsed,
    ofText sampleTree.render "m.plp" = .ok parsed ∧ parsed.diagnostics = [] ∧
      parsed.tree.arena.tree? parsed.root = some sampleTree :=
  ⟨sample_is_module, of_render sample_is_module "m.plp"⟩

end ParsedModule

end ModuleLang
