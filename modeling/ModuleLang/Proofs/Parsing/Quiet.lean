import ModuleLang.Parsing.Declaration
import ModuleLang.Proofs.Faithful.Passing

/-!
Only the loop over the items of a file reports tokens that begin no item. A production that
never does is quiet. Being quiet is kept by everything that productions are put together
with, so there is one short lemma for each of them, up to the items themselves.
-/

namespace ModuleLang

/-- The diagnostic is about tokens at top level that begin no item. -/
def Diagnostic.isUnexpected (found : Diagnostic) : Bool := found.kind.code == "PRS1009"

theorem Diagnostic.is_unexpected_iff {found : Diagnostic} :
    found.isUnexpected = true ↔ found.kind = .unexpectedTopLevelToken := by
  obtain ⟨kind, span, fileName⟩ := found
  cases kind <;> simp [isUnexpected, DiagnosticKind.code]

/-- What was reported about tokens that begin no item. -/
def ParserState.unexpected (state : ParserState) : List Diagnostic :=
  state.context.diagnostics.filter Diagnostic.isUnexpected

namespace Parser

open ParserState

variable {value image : Type}

/-- The action reports no token as one that begins no item, wherever it begins. -/
def Quiet (action : Parser value) : Prop :=
  ∀ start, Ensures action start fun _ final => final.unexpected = start.unexpected

section Rules

variable {action : Parser value} {next : value → Parser image} {production : Parser (Option value)}

theorem quiet_pure (result : value) : Quiet (pure result) := by
  intro start
  exact (ensures_pure _ _ _).mpr rfl

theorem quiet_throw (failure : InternalError) : Quiet (throw failure : Parser value) := by
  intro start
  exact ensures_throw _ _ _

/-- An action behind one that may move its context, from a given place. -/
theorem Quiet.since (quiet : Quiet action) {start middle : ParserState}
    (same : middle.unexpected = start.unexpected) :
    Ensures action middle fun _ final => final.unexpected = start.unexpected :=
  (quiet middle).weaken fun _ _ kept => kept.trans same

theorem quiet_bind (first : Quiet action) (rest : ∀ result, Quiet (next result)) :
    Quiet (action >>= next) := by
  intro start
  rw [ensures_bind]
  apply (first start).weaken
  intro result middle same
  exact (rest result).since same

/-- A production that ends without a result where a part of it does. -/
theorem quiet_then {next : Option value → Parser (Option image)} (first : Quiet production)
    (ends : next none = pure none) (rest : ∀ found, Quiet (next (some found))) :
    Quiet (production >>= next) := by
  refine quiet_bind first ?_
  intro result
  cases result with
  | none =>
      rw [ends]
      exact quiet_pure none
  | some found => exact rest found

theorem quiet_ite {condition : Prop} [Decidable condition] {other : Parser value}
    (first : Quiet action) (second : Quiet other) :
    Quiet (if condition then action else other) := by
  split
  · exact first
  · exact second

theorem quiet_context : Quiet context := fun start => (ensures_context start _).mpr rfl

theorem quiet_current : Quiet current := fun start => (ensures_current start _).mpr rfl

theorem quiet_remaining : Quiet remaining := fun start => (ensures_remaining start _).mpr rfl

theorem quiet_previous_end : Quiet previousEnd :=
  fun start => (ensures_previous_end start _).mpr rfl

theorem quiet_kind (node : NodeId) : Quiet (kind? node) :=
  fun start => (ensures_kind node start _).mpr rfl

theorem quiet_of_except (found : Except InternalError value) :
    Quiet (SourceTree.ofExcept found) := by
  cases found with
  | ok result => exact quiet_pure result
  | error failure => exact quiet_throw failure

/-- A step that reports nothing. -/
theorem quiet_move {step : ParsingContext → ParsingContext}
    (same : ∀ context, (step context).diagnostics = context.diagnostics) : Quiet (move step) := by
  intro start
  rw [ensures_move]
  exact congrArg (List.filter _) (same start.context)

theorem quiet_advance : Quiet advance := quiet_move fun _ => rfl

theorem quiet_skip_lines : Quiet skipLines := quiet_move fun _ => rfl

theorem quiet_skip_until (stops : TokenKind → Bool) :
    Quiet (move (ParsingContext.skipUntil stops)) :=
  quiet_move fun _ => rfl

theorem quiet_report {kind : DiagnosticKind} {span : Span}
    (other : kind ≠ .unexpectedTopLevelToken) : Quiet (report kind span) := by
  intro start
  unfold report
  rw [ensures_move]
  simp [ParserState.unexpected, ParsingContext.report, Diagnostic.is_unexpected_iff, other]

theorem quiet_report_here {kind : DiagnosticKind} (other : kind ≠ .unexpectedTopLevelToken) :
    Quiet (reportHere kind) := by
  intro start
  have told : Quiet (report kind start.context.current.span) := quiet_report other
  exact (ensures_move _ _ _).mpr ((ensures_move _ _ _).mp (told start))

/-- A production that ends because something is missing, which it reports. -/
theorem quiet_missing {kind : DiagnosticKind} (other : kind ≠ .unexpectedTopLevelToken) :
    Quiet (do
      reportHere kind
      return (none : Option value)) :=
  quiet_bind (quiet_report_here other) fun _ => quiet_pure none

theorem quiet_on_tree (action : SourceTree.Action value) : Quiet (onTree action) := by
  intro start
  rw [ensures_on_tree]
  constructor
  intro result tree _
  rfl

theorem quiet_finish (kind : NodeKind NodeId) (start : Position) : Quiet (finish kind start) :=
  quiet_bind quiet_previous_end fun _ => quiet_on_tree _

/-- A production that ends with the making of its node. -/
theorem quiet_made (kind : NodeKind NodeId) (start : Position) :
    Quiet (do return some (← finish kind start)) :=
  quiet_bind (quiet_finish kind start) fun _ => quiet_pure _

theorem quiet_accept (mark : Punctuation) : Quiet (accept mark) := by
  refine quiet_bind quiet_context fun here => ?_
  exact quiet_ite (quiet_bind quiet_advance fun _ => quiet_pure true) (quiet_pure false)

theorem quiet_expect {mark : Punctuation} {missing : DiagnosticKind}
    (other : missing ≠ .unexpectedTopLevelToken) : Quiet (expect mark missing) := by
  refine quiet_bind (quiet_accept mark) fun found => ?_
  exact quiet_ite (quiet_report_here other) (quiet_pure _)

theorem quiet_word : Quiet word? := by
  refine quiet_bind quiet_current fun token => ?_
  split
  · exact quiet_bind quiet_advance fun _ => quiet_pure _
  · exact quiet_pure none

/-- The context that was left is kept, and what the fork reported is appended or dropped. -/
theorem quiet_attempt (quiet : Quiet production) : Quiet (attempt production) := by
  intro start
  unfold attempt
  rw [ensures_bind, ensures_context, ensures_bind, ensures_set_context, ensures_bind]
  apply (quiet _).weaken
  intro result final same
  have silent : final.unexpected = [] := same
  cases result with
  | none =>
      rw [ensures_bind, ensures_set_context]
      exact (ensures_pure _ _ _).mpr rfl
  | some found =>
      rw [ensures_bind, ensures_move]
      apply (ensures_pure _ _ _).mpr
      change (start.context.diagnostics ++ final.context.diagnostics).filter _ = _
      rw [List.filter_append, show final.context.diagnostics.filter _ = [] from silent,
        List.append_nil]
      rfl

/-- A production from the place that a fork has skipped line ends to. -/
theorem quiet_ahead (later : Quiet action) (start : ParserState) :
    Ensures (do
      setContext (start.context.merge start.context.fork.skipLines)
      action) start fun _ final => final.unexpected = start.unexpected := by
  rw [ensures_bind, ensures_set_context]
  apply later.since
  change (start.context.diagnostics ++ []).filter _ = _
  rw [List.append_nil]
  rfl

end Rules

theorem quiet_commas (budget : Nat) : Quiet (commas budget) := by
  induction budget with
  | zero => exact quiet_throw _
  | succ budget ih =>
      unfold commas
      refine quiet_bind (quiet_accept .comma) fun found => ?_
      exact quiet_ite (quiet_bind ih fun _ => quiet_pure _) (quiet_pure 0)

theorem quiet_rank_suffixes (budget : Nat) (ranks : List Nat) :
    Quiet (rankSuffixes budget ranks) := by
  induction budget generalizing ranks with
  | zero => exact quiet_throw _
  | succ budget ih =>
      unfold rankSuffixes
      refine quiet_bind quiet_context fun here => quiet_ite (quiet_pure _) ?_
      refine quiet_bind quiet_current fun opening => ?_
      refine quiet_bind quiet_advance fun _ => ?_
      refine quiet_bind quiet_remaining fun bound => ?_
      refine quiet_bind (quiet_commas bound) fun count => ?_
      refine quiet_bind (quiet_accept .closeBracket) fun closed => ?_
      refine quiet_ite (quiet_missing nofun) (quiet_ite ?_ (ih _))
      refine quiet_bind quiet_previous_end fun stop => ?_
      refine quiet_bind (quiet_of_except _) fun span => ?_
      exact quiet_bind (quiet_report nofun) fun _ => quiet_pure none

theorem quiet_type : Quiet type := by
  refine quiet_bind quiet_current fun token => ?_
  refine quiet_bind quiet_word fun found => ?_
  cases found with
  | none => exact quiet_missing nofun
  | some name =>
      refine quiet_bind quiet_remaining fun bound => ?_
      refine quiet_then (quiet_rank_suffixes bound []) rfl fun ranks => ?_
      exact quiet_made _ _

theorem quiet_names_builtin (node : NodeId) : Quiet (namesBuiltin node) := by
  refine quiet_bind (quiet_kind node) fun found => ?_
  split
  · exact quiet_pure _
  · exact quiet_pure _

section Expressions

variable {expression : (minimum : Nat) → Parser (Option NodeId)}
  (quiet : ∀ minimum, Quiet (expression minimum))

include quiet

theorem quiet_arguments_from (budget : Nat) (found : List NodeId) :
    Quiet (argumentsFrom expression budget found) := by
  induction budget generalizing found with
  | zero => exact quiet_throw _
  | succ budget ih =>
      unfold argumentsFrom
      refine quiet_then (quiet 0) rfl fun argument => ?_
      refine quiet_bind quiet_skip_lines fun _ => ?_
      refine quiet_bind (quiet_accept .comma) fun comma => quiet_ite ?_ ?_
      · exact quiet_bind quiet_skip_lines fun _ => ih _
      · exact quiet_bind (quiet_expect nofun) fun _ => quiet_pure _

theorem quiet_arguments : Quiet (arguments expression) := by
  refine quiet_bind (quiet_accept .openParen) fun opened => quiet_ite (quiet_missing nofun) ?_
  refine quiet_bind quiet_skip_lines fun _ => ?_
  refine quiet_bind (quiet_accept .closeParen) fun closed => quiet_ite (quiet_pure _) ?_
  exact quiet_bind quiet_remaining fun bound => quiet_arguments_from quiet bound []

theorem quiet_construction : Quiet (construction expression) := by
  refine quiet_bind quiet_current fun token => ?_
  refine quiet_bind quiet_advance fun _ => ?_
  refine quiet_bind quiet_current fun first => ?_
  refine quiet_bind quiet_word fun found => ?_
  cases found with
  | none => exact quiet_missing nofun
  | some name =>
      refine quiet_bind (quiet_finish _ _) fun type => ?_
      refine quiet_bind (quiet_accept .openBracket) fun bracket => quiet_ite ?_ ?_
      · refine quiet_then (quiet 0) rfl fun length => ?_
        exact quiet_bind (quiet_expect nofun) fun _ => quiet_made _ _
      · exact quiet_then (quiet_arguments quiet) rfl fun arguments => quiet_made _ _

theorem quiet_cast : Quiet (cast expression) := by
  refine quiet_bind quiet_current fun token => ?_
  refine quiet_bind quiet_advance fun _ => ?_
  refine quiet_then quiet_type rfl fun target => ?_
  refine quiet_bind (quiet_accept .closeParen) fun closed => quiet_ite (quiet_pure none) ?_
  refine quiet_bind (quiet_names_builtin target) fun builtin => ?_
  refine quiet_bind quiet_current fun next => quiet_ite (quiet_pure none) ?_
  exact quiet_then (quiet _) rfl fun inner => quiet_made _ _

theorem quiet_parenthesized : Quiet (parenthesized expression) := by
  refine quiet_bind quiet_advance fun _ => ?_
  refine quiet_bind quiet_skip_lines fun _ => ?_
  refine quiet_then (quiet 0) rfl fun inner => ?_
  refine quiet_bind quiet_skip_lines fun _ => ?_
  exact quiet_bind (quiet_expect nofun) fun _ => quiet_pure _

theorem quiet_operand : Quiet (operand expression) := by
  refine quiet_bind quiet_current fun token => ?_
  dsimp only
  split
  · exact quiet_bind quiet_advance fun _ => quiet_made _ _
  · refine quiet_bind quiet_advance fun _ => ?_
    refine quiet_bind quiet_context fun here => quiet_ite ?_ (quiet_made _ _)
    exact quiet_then (quiet_arguments quiet) rfl fun arguments => quiet_made _ _
  · exact quiet_construction quiet
  · split
    · refine quiet_bind quiet_advance fun _ => ?_
      exact quiet_then (quiet _) rfl fun operand => quiet_made _ _
    · exact quiet_missing nofun
  · refine quiet_bind (quiet_attempt (quiet_cast quiet)) fun found => ?_
    cases found with
    | none => exact quiet_parenthesized quiet
    | some cast => exact quiet_pure _
  · exact quiet_missing nofun

theorem quiet_trailing (budget : Nat) (start : Position) (target : NodeId) :
    Quiet (trailing expression budget start target) := by
  induction budget generalizing target with
  | zero => exact quiet_throw _
  | succ budget ih =>
      unfold trailing
      refine quiet_bind quiet_current fun token => ?_
      split
      · refine quiet_bind quiet_advance fun _ => ?_
        refine quiet_bind quiet_word fun found => ?_
        cases found with
        | none => exact quiet_missing nofun
        | some name => exact quiet_bind (quiet_finish _ _) fun node => ih node
      · refine quiet_bind quiet_advance fun _ => ?_
        refine quiet_then (quiet 0) rfl fun index => ?_
        refine quiet_bind (quiet_expect nofun) fun _ => ?_
        exact quiet_bind (quiet_finish _ _) fun node => ih node
      · split
        · refine quiet_bind quiet_advance fun _ => ?_
          exact quiet_bind (quiet_finish _ _) fun node => ih node
        · exact quiet_pure _
      · exact quiet_pure _

theorem quiet_binaries (minimum budget : Nat) (start : Position) (left : NodeId) :
    Quiet (binaries expression minimum budget start left) := by
  induction budget generalizing left with
  | zero => exact quiet_throw _
  | succ budget ih =>
      unfold binaries
      refine quiet_bind quiet_current fun token => ?_
      split
      · exact quiet_pure _
      · refine quiet_bind quiet_advance fun _ => ?_
        refine quiet_bind quiet_skip_lines fun _ => ?_
        refine quiet_then (quiet _) rfl fun right => ?_
        exact quiet_bind (quiet_finish _ _) fun node => ih node

theorem quiet_operation (minimum : Nat) : Quiet (operation expression minimum) := by
  refine quiet_bind quiet_current fun token => ?_
  refine quiet_then (quiet_operand quiet) rfl fun first => ?_
  refine quiet_bind quiet_remaining fun bound => ?_
  refine quiet_then (quiet_trailing quiet bound _ first) rfl fun left => ?_
  exact quiet_bind quiet_remaining fun bound => quiet_binaries quiet minimum bound _ left

end Expressions

theorem quiet_expression_within (budget minimum : Nat) :
    Quiet (expressionWithin budget minimum) := by
  induction budget generalizing minimum with
  | zero => exact quiet_throw _
  | succ budget ih => exact quiet_operation ih minimum

theorem quiet_expression (minimum : Nat) : Quiet (expression minimum) :=
  quiet_bind quiet_remaining fun bound => quiet_expression_within bound minimum

theorem quiet_end_statement : Quiet endStatement := by
  -- A semicolon is moved past if it is there.
  have closes : Quiet (do if (← current).kind == .endOfStatement then advance) :=
    quiet_bind quiet_current fun token => quiet_ite quiet_advance (quiet_pure _)
  refine quiet_bind quiet_context fun here => quiet_ite ?_ closes
  refine quiet_bind quiet_current fun token => ?_
  refine quiet_bind (quiet_skip_until _) fun _ => ?_
  refine quiet_bind quiet_previous_end fun stop => ?_
  exact quiet_bind (quiet_report nofun) fun _ => closes

/-- A production whose statement ends with it. -/
theorem quiet_ended (node : NodeId) :
    Quiet (do
      endStatement
      return some node) :=
  quiet_bind quiet_end_statement fun _ => quiet_pure _

theorem quiet_definition : Quiet definition := by
  refine quiet_bind quiet_current fun token => ?_
  refine quiet_then quiet_type rfl fun type => ?_
  refine quiet_then quiet_word rfl fun name => ?_
  refine quiet_bind (quiet_finish _ _) fun defined => ?_
  refine quiet_bind quiet_context fun here => quiet_ite (quiet_pure _) ?_
  refine quiet_bind quiet_context fun here => quiet_ite (quiet_pure none) ?_
  refine quiet_bind quiet_advance fun _ => ?_
  exact quiet_then (quiet_expression 0) rfl fun value => quiet_made _ _

theorem quiet_assignment : Quiet assignment := by
  refine quiet_bind quiet_current fun token => ?_
  refine quiet_then (quiet_expression _) rfl fun target => ?_
  refine quiet_bind (quiet_kind target) fun kind => quiet_ite (quiet_pure none) ?_
  refine quiet_bind quiet_current fun sign => ?_
  split
  · exact quiet_pure none
  · refine quiet_bind quiet_advance fun _ => ?_
    exact quiet_then (quiet_expression 0) rfl fun value => quiet_made _ _

theorem quiet_expression_statement : Quiet expressionStatement := by
  refine quiet_then (quiet_expression 0) rfl fun node => ?_
  exact quiet_bind (quiet_kind node) fun kind => quiet_ite (quiet_pure _) (quiet_pure none)

theorem quiet_simple_statement : Quiet simpleStatement := by
  have closes : ∀ found : Option NodeId, Quiet (do
      if found.isSome then endStatement
      return found) := by
    intro found
    exact quiet_ite (quiet_bind quiet_end_statement fun _ => quiet_pure _) (quiet_pure _)
  refine quiet_bind (quiet_attempt quiet_definition) fun found => ?_
  cases found with
  | some node => exact closes (some node)
  | none =>
      refine quiet_bind (quiet_attempt quiet_assignment) fun found => ?_
      cases found with
      | some node => exact closes (some node)
      | none => exact quiet_bind (quiet_attempt quiet_expression_statement) closes

theorem quiet_predicate : Quiet predicate := by
  refine quiet_bind (quiet_accept .openParen) fun opened => quiet_ite (quiet_expression 0) ?_
  refine quiet_bind quiet_skip_lines fun _ => ?_
  refine quiet_then (quiet_expression 0) rfl fun inner => ?_
  refine quiet_bind quiet_skip_lines fun _ => ?_
  exact quiet_bind (quiet_expect nofun) fun _ => quiet_pure _

theorem quiet_return_statement : Quiet returnStatement := by
  refine quiet_bind quiet_current fun token => ?_
  refine quiet_bind quiet_advance fun _ => ?_
  refine quiet_bind quiet_context fun here => quiet_ite ?_ ?_
  · exact quiet_bind (quiet_finish _ _) quiet_ended
  · refine quiet_then (quiet_expression 0) rfl fun value => ?_
    exact quiet_bind (quiet_finish _ _) quiet_ended

theorem quiet_jump (kind : NodeKind NodeId) : Quiet (jump kind) := by
  refine quiet_bind quiet_current fun token => ?_
  refine quiet_bind quiet_advance fun _ => ?_
  exact quiet_bind (quiet_finish _ _) quiet_ended

section Statements

variable {statement : Parser (Option NodeId)} (quiet : Quiet statement)

include quiet

theorem quiet_block_from (budget : Nat) (failing : Bool) (found : List NodeId) :
    Quiet (blockFrom statement budget failing found) := by
  induction budget generalizing failing found with
  | zero => exact quiet_throw _
  | succ budget ih =>
      unfold blockFrom
      refine quiet_bind quiet_skip_lines fun _ => ?_
      refine quiet_bind (quiet_accept .closeBrace) fun closed => quiet_ite (quiet_pure _) ?_
      refine quiet_bind quiet_current fun token => ?_
      split
      · exact quiet_bind (quiet_report_here nofun) fun _ => quiet_pure _
      · exact quiet_bind quiet_advance fun _ => ih _ _
      · refine quiet_bind (quiet_attempt quiet) fun result => ?_
        cases result with
        | some node => exact ih _ _
        | none =>
            have passes : Quiet (do
                advance
                blockFrom statement budget true found) :=
              quiet_bind quiet_advance fun _ => ih _ _
            exact quiet_ite (quiet_bind (quiet_report_here nofun) fun _ => passes) passes

theorem quiet_block : Quiet (block statement) := by
  refine quiet_bind quiet_current fun token => ?_
  refine quiet_bind quiet_advance fun _ => ?_
  refine quiet_bind quiet_remaining fun bound => ?_
  exact quiet_bind (quiet_block_from quiet bound false []) fun _ => quiet_made _ _

theorem quiet_single_body : Quiet (singleBody statement) := by
  refine quiet_bind quiet_current fun token => ?_
  refine quiet_bind (quiet_attempt quiet) fun result => ?_
  cases result with
  | some node => exact quiet_made _ _
  | none => exact quiet_missing nofun

theorem quiet_body : Quiet (body statement) := by
  intro start
  -- A body that would not be indented deeper is taken to be missing.
  have later : Ensures (do
      if (start.context.fork.skipLines.cursor.atEnd ||
          start.context.fork.skipLines.cursor.indentation ≤ start.context.cursor.indentation) then
        reportHere (.expectedToken "\x7b")
        let place ← previousEnd
        return some (← onTree (SourceTree.create (.body []) (.point place)))
      else
        setContext (start.context.merge start.context.fork.skipLines)
        singleBody statement) start fun _ final => final.unexpected = start.unexpected := by
    split
    · have absent : Quiet (do
          reportHere (.expectedToken "\x7b")
          let place ← previousEnd
          return some (← onTree (SourceTree.create (.body []) (.point place)))) := by
        refine quiet_bind (quiet_report_here nofun) fun _ => ?_
        refine quiet_bind quiet_previous_end fun place => ?_
        exact quiet_bind (quiet_on_tree _) fun _ => quiet_pure _
      exact absent start
    · exact quiet_ahead (quiet_single_body quiet) start
  unfold body
  rw [ensures_bind, ensures_context]
  dsimp only
  split
  · exact quiet_ahead (quiet_block quiet) start
  · split
    · exact quiet_bind quiet_advance (fun _ => quiet_made _ _) start
    · exact later
    · exact later
    · exact quiet_single_body quiet start

theorem quiet_condition : Quiet (condition statement) := by
  refine quiet_bind quiet_current fun token => ?_
  refine quiet_bind quiet_advance fun _ => ?_
  refine quiet_then quiet_predicate rfl fun predicate => ?_
  refine quiet_then (quiet_body quiet) rfl fun thenBody => ?_
  intro start
  rw [ensures_bind, ensures_context]
  dsimp only
  split
  · apply quiet_ahead
    refine quiet_bind quiet_advance fun _ => ?_
    exact quiet_then (quiet_body quiet) rfl fun elseBody => quiet_made _ _
  · exact quiet_made _ _ start

theorem quiet_while_loop : Quiet (whileLoop statement) := by
  refine quiet_bind quiet_current fun token => ?_
  refine quiet_bind quiet_advance fun _ => ?_
  refine quiet_then quiet_predicate rfl fun predicate => ?_
  exact quiet_then (quiet_body quiet) rfl fun block => quiet_made _ _

theorem quiet_any_statement : Quiet (anyStatement statement) := by
  refine quiet_bind quiet_current fun token => ?_
  split
  · exact quiet_condition quiet
  · exact quiet_while_loop quiet
  · exact quiet_return_statement
  · exact quiet_jump _
  · exact quiet_jump _
  · exact quiet_block quiet
  · exact quiet_simple_statement

end Statements

theorem quiet_statement_within (budget : Nat) : Quiet (statementWithin budget) := by
  induction budget with
  | zero => exact quiet_throw _
  | succ budget ih => exact quiet_any_statement ih

theorem quiet_statement : Quiet statement :=
  quiet_bind quiet_remaining fun bound => quiet_statement_within bound

theorem quiet_path_from (budget : Nat) (segments : List String) :
    Quiet (pathFrom budget segments) := by
  induction budget generalizing segments with
  | zero => exact quiet_throw _
  | succ budget ih =>
      unfold pathFrom
      refine quiet_bind quiet_word fun found => ?_
      cases found with
      | none => exact quiet_missing nofun
      | some segment =>
          refine quiet_bind (quiet_accept .dot) fun dotted => ?_
          exact quiet_ite (ih _) (quiet_pure _)

theorem quiet_path_item (kind : ModulePath → NodeKind NodeId) : Quiet (pathItem kind) := by
  refine quiet_bind quiet_current fun token => ?_
  refine quiet_bind quiet_advance fun _ => ?_
  refine quiet_bind quiet_remaining fun bound => ?_
  refine quiet_then (quiet_path_from bound []) rfl fun path => ?_
  exact quiet_bind (quiet_finish _ _) quiet_ended

theorem quiet_parameter : Quiet parameter := by
  refine quiet_bind quiet_current fun token => ?_
  refine quiet_then quiet_type rfl fun type => ?_
  exact quiet_then quiet_word rfl fun name => quiet_made _ _

theorem quiet_parameters_from (budget : Nat) (found : List NodeId) :
    Quiet (parametersFrom budget found) := by
  induction budget generalizing found with
  | zero => exact quiet_throw _
  | succ budget ih =>
      unfold parametersFrom
      refine quiet_bind (quiet_attempt quiet_parameter) fun result => ?_
      cases result with
      | none => exact quiet_missing nofun
      | some parameter =>
          refine quiet_bind quiet_skip_lines fun _ => ?_
          refine quiet_bind (quiet_accept .comma) fun comma => quiet_ite ?_ ?_
          · exact quiet_bind quiet_skip_lines fun _ => ih _
          · exact quiet_bind (quiet_expect nofun) fun _ => quiet_pure _

theorem quiet_parameters : Quiet parameters := by
  refine quiet_bind (quiet_accept .openParen) fun opened => quiet_ite (quiet_missing nofun) ?_
  refine quiet_bind quiet_skip_lines fun _ => ?_
  refine quiet_bind (quiet_accept .closeParen) fun closed => quiet_ite (quiet_pure _) ?_
  exact quiet_bind quiet_remaining fun bound => quiet_parameters_from bound []

theorem quiet_typed_header : Quiet typedHeader := by
  refine quiet_then quiet_type rfl fun result => ?_
  refine quiet_then quiet_word rfl fun name => ?_
  exact quiet_bind quiet_context fun here => quiet_ite (quiet_pure _) (quiet_pure none)

theorem quiet_plain_header : Quiet plainHeader := by
  refine quiet_bind quiet_current fun token => ?_
  split
  · exact quiet_ite (quiet_bind quiet_advance fun _ => quiet_pure _) (quiet_missing nofun)
  · exact quiet_missing nofun

theorem quiet_header : Quiet header := by
  refine quiet_bind (quiet_attempt quiet_typed_header) fun found => ?_
  cases found with
  | some found => exact quiet_pure _
  | none => exact quiet_bind quiet_plain_header fun name => quiet_pure _

theorem quiet_function : Quiet function := by
  refine quiet_bind quiet_current fun token => ?_
  refine quiet_bind quiet_advance fun _ => ?_
  refine quiet_then quiet_header rfl fun heading => ?_
  refine quiet_then quiet_parameters rfl fun parameters => ?_
  exact quiet_then (quiet_body quiet_statement) rfl fun body => quiet_made _ _

/-- An item that fails is passed over without a report of its own. -/
theorem quiet_item {production : Parser (Option NodeId)} (quiet : Quiet production) :
    Quiet (item production) := by
  refine quiet_bind quiet_context fun here => ?_
  refine quiet_bind quiet fun found => ?_
  cases found with
  | some node => exact quiet_pure _
  | none =>
      have skips : Quiet (move (ParsingContext.skipUntil startsItem)) := quiet_skip_until _
      have recovers : Quiet (recover here.cursor.position) := by
        refine quiet_bind quiet_context fun stopped => ?_
        exact quiet_ite (quiet_bind quiet_advance fun _ => skips) skips
      exact quiet_bind recovers fun _ => quiet_pure _

end Parser

end ModuleLang
