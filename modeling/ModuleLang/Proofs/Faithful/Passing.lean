import ModuleLang.Proofs.Ensures
import ModuleLang.Proofs.RoundTrip.Reproducing
import ModuleLang.Proofs.Tree.Marks

/-!
What a stretch of tokens leaves open: parentheses, and an operator that still waits for
its right operand. Tokens that are no part of an expression count as well, as long as
they leave nothing open. A text in which something stays open cannot have been read
without a report.
-/

namespace ModuleLang

/-- The parentheses that are open, and whether an operator waits for an operand. -/
structure Nesting where
  depth : Nat
  waiting : Bool

namespace Nesting

/-- Nothing is open. -/
def outermost : Nesting := ⟨0, false⟩

/-- No operator waits. -/
def settled (nesting : Nesting) : Nesting := ⟨nesting.depth, false⟩

/-- What is open behind one more token. A parenthesis that closes nothing is refused. -/
def step (nesting : Nesting) : TokenKind → Option Nesting
  | .punctuation .openParen => some ⟨nesting.depth + 1, false⟩
  | .punctuation .closeParen =>
      if nesting.depth = 0 then none else some ⟨nesting.depth - 1, false⟩
  | .operator spelt => some ⟨nesting.depth, spelt.bindingPower?.isSome⟩
  | .blank | .comment | .indentation | .endOfLine | .endOfFile => some nesting
  | _ => some ⟨nesting.depth, false⟩

/-- What is open behind some tokens. -/
def through (nesting : Nesting) (kinds : List TokenKind) : Option Nesting :=
  kinds.foldlM step nesting

variable {nesting : Nesting} {kinds more : List TokenKind}

theorem through_nil (nesting : Nesting) : nesting.through [] = some nesting := rfl

theorem through_cons (kind : TokenKind) :
    nesting.through (kind :: kinds) = (nesting.step kind).bind fun next => next.through kinds :=
  rfl

theorem through_append : nesting.through (kinds ++ more) =
    (nesting.through kinds).bind fun next => next.through more :=
  List.foldlM_append

/-- Tokens that leave nothing open behind them, and no operator waiting. -/
def Settles (kinds : List TokenKind) : Prop :=
  ∀ nesting : Nesting, nesting.through kinds = some nesting.settled

/-- Tokens that leave open what was open before, as long as no operator waited. -/
def Neutral (kinds : List TokenKind) : Prop :=
  ∀ depth, Nesting.through ⟨depth, false⟩ kinds = some ⟨depth, false⟩

/-- Tokens that close one parenthesis. -/
def Closes (kinds : List TokenKind) : Prop :=
  ∀ depth, Nesting.through ⟨depth + 1, false⟩ kinds = some ⟨depth, false⟩

theorem Settles.neutral (settles : Settles kinds) : Neutral kinds := fun depth =>
  settles ⟨depth, false⟩

theorem Neutral.nil : Neutral [] := fun _ => rfl

theorem Neutral.append (left : Neutral kinds) (right : Neutral more) : Neutral (kinds ++ more) := by
  intro depth
  rw [through_append, left depth, Option.bind_some, right depth]

theorem Neutral.closes (left : Neutral kinds) (right : Closes more) : Closes (kinds ++ more) := by
  intro depth
  rw [through_append, left, Option.bind_some, right depth]

theorem closes_paren : Closes [.punctuation .closeParen] := by
  intro depth
  simp [through_cons, through_nil, step]

/-- A pair of parentheses leaves nothing open. -/
theorem Closes.grouped (closes : Closes kinds) :
    Settles (.punctuation .openParen :: kinds) := by
  intro nesting
  simp only [through_cons, step, Option.bind_some]
  exact closes nesting.depth

theorem Settles.append (left : Settles kinds) (right : Settles more) : Settles (kinds ++ more) := by
  intro nesting
  rw [through_append, left, Option.bind_some, right]
  rfl

theorem Settles.append_neutral (left : Settles kinds) (right : Neutral more) :
    Settles (kinds ++ more) := by
  intro nesting
  rw [through_append, left, Option.bind_some]
  exact right nesting.depth

/-- An operator waits for nothing once its operand is there. -/
theorem Settles.behind_operator (spelt : Operator) (right : Settles kinds) :
    Settles (.operator spelt :: kinds) := by
  intro nesting
  rw [through_cons]
  exact right ⟨nesting.depth, spelt.bindingPower?.isSome⟩

/-- Tokens that open and close nothing and wait for nothing. -/
def isPlain : TokenKind → Bool
  | .punctuation .openParen | .punctuation .closeParen => false
  | .operator spelt => spelt.bindingPower?.isNone
  | .blank | .comment | .indentation | .endOfLine | .endOfFile => false
  | _ => true

theorem settles_plain {kind : TokenKind} (plain : isPlain kind = true) : Settles [kind] := by
  intro nesting
  have next : nesting.step kind = some nesting.settled := by
    cases kind with
    | operator spelt =>
        simp only [isPlain, Option.isNone_iff_eq_none] at plain
        simp [step, settled, plain]
    | punctuation sign => cases sign <;> first | rfl | cases plain
    | _ => first | rfl | cases plain
  rw [through_cons, next]
  rfl

theorem settles_word (name : String) : Settles [.word name] := settles_plain rfl

theorem settles_keyword (reserved : Keyword) : Settles [.keyword reserved] := settles_plain rfl

end Nesting

end ModuleLang

/-!
What a production passes over. A production that went on without a report has passed
over exactly the tokens that what it returns was spelt with: their marks are carried by
the nodes, and they leave nothing open. One that reported may have passed over anything,
and so may one that returned nothing: a fork that is dropped is as if it had not been
tried.
-/

namespace ModuleLang

namespace TokenKind

/-- Tokens that are moved past one by one: all but trivia and the end of the file. -/
def isSolid (kind : TokenKind) : Bool := !kind.isTrivia && kind != .endOfFile

/-- The token, if it is moved past. -/
def solid (kind : TokenKind) : List TokenKind := [kind].filter isSolid

@[simp]
theorem solid_word (name : String) : (word name).solid = [word name] := rfl

@[simp]
theorem solid_keyword (reserved : Keyword) : (keyword reserved).solid = [keyword reserved] := rfl

@[simp]
theorem solid_literal (value : Literal) : (literal value).solid = [literal value] := rfl

@[simp]
theorem solid_operator (spelling : Operator) :
    (operator spelling).solid = [operator spelling] := rfl

@[simp]
theorem solid_punctuation (sign : Punctuation) :
    (punctuation sign).solid = [punctuation sign] := rfl

@[simp]
theorem solid_end_of_statement : endOfStatement.solid = [endOfStatement] := rfl

theorem solid_of_trivia {kind : TokenKind} (skipped : kind.isTrivia = true) : kind.solid = [] := by
  cases kind <;> first | rfl | cases skipped

theorem solid_of_inline {kind : TokenKind} (skipped : kind.isInlineTrivia = true) :
    kind.solid = [] := by
  cases kind <;> first | rfl | cases skipped

theorem solid_of_mark {kind : TokenKind} (mark : kind.isMark = true) : kind.isSolid = true := by
  cases kind <;> first | rfl | cases mark

end TokenKind

namespace Cursor

variable {cursor : Cursor} {skipped : TokenKind → Bool}

/-- The tokens behind a cursor that were moved past one by one. -/
def behind (cursor : Cursor) : List TokenKind :=
  ((cursor.sequence.tokens.toList.take cursor.position).map Token.kind).filter TokenKind.isSolid

theorem behind_advance (inside : cursor.Inside) :
    cursor.advance.behind = cursor.behind ++ cursor.current.kind.solid := by
  by_cases stays : cursor.atEnd = true
  · have kind : cursor.current.kind = .endOfFile := eq_of_beq stays
    rw [advance, if_pos stays, kind]
    exact (List.append_nil _).symm
  · have bound : cursor.position < cursor.sequence.tokens.toList.length := inside
    have current : cursor.current = cursor.sequence.tokens.toList[cursor.position] := by
      rw [current, TokenSequence.get_of_bound inside]
      rfl
    rw [advance, if_neg stays, current]
    unfold behind
    dsimp only
    rw [List.take_succ_eq_append_getElem bound, List.map_append, List.filter_append]
    rfl

theorem behind_skip_within (silent : ∀ kind, skipped kind = true → kind.solid = []) (budget : Nat)
    (inside : cursor.Inside) : (skipWithin skipped budget cursor).behind = cursor.behind := by
  induction budget generalizing cursor with
  | zero => rfl
  | succ budget ih =>
      unfold skipWithin
      split
      · rfl
      · rename_i going
        have skips : skipped cursor.current.kind = true := by
          by_contra stops
          simp [stops] at going
        rw [ih (inside_advance inside), behind_advance inside, silent _ skips, List.append_nil]

theorem behind_skip_while (silent : ∀ kind, skipped kind = true → kind.solid = [])
    (inside : cursor.Inside) : (cursor.skipWhile skipped).behind = cursor.behind :=
  behind_skip_within silent _ inside

theorem behind_advance_inline (inside : cursor.Inside) :
    cursor.advanceInline.behind = cursor.behind ++ cursor.current.kind.solid := by
  rw [advanceInline, skipInline,
    behind_skip_while (fun _ => TokenKind.solid_of_inline) (inside_advance inside),
    behind_advance inside]

/-- Outside of its tokens a cursor is at the end of the file. -/
theorem inside_of_going (going : cursor.current.kind ≠ .endOfFile) : cursor.Inside := by
  by_contra outside
  have beyond : cursor.sequence.size ≤ cursor.position := Nat.le_of_not_lt outside
  have last : cursor.sequence.get cursor.position =
      cursor.sequence.get (cursor.sequence.size - 1) := by
    have clamped : min cursor.position (cursor.sequence.size - 1) = cursor.sequence.size - 1 :=
      Nat.min_eq_right (Nat.le_trans (Nat.sub_le _ _) beyond)
    simp only [TokenSequence.get, clamped, Nat.min_self]
  apply going
  rw [current, last]
  exact TokenSequence.kind_of_last _

/-- It stays there. -/
theorem inside_of_skipped (going : (cursor.skipWhile skipped).current.kind ≠ .endOfFile) :
    cursor.Inside := by
  by_contra outside
  have stays : cursor.skipWhile skipped = cursor := by
    rw [skipWhile, remaining, Nat.sub_eq_zero_of_le (Nat.le_of_not_lt outside)]
    rfl
  rw [stays] at going
  exact outside (inside_of_going going)

end Cursor

/-- Tokens that say nothing and leave nothing open. -/
structure Silent (kinds : List TokenKind) : Prop where
  unmarked : kinds.filter TokenKind.isMark = []
  neutral : Nesting.Neutral kinds

namespace Silent

variable {kinds more : List TokenKind}

theorem nil : Silent [] := ⟨rfl, .nil⟩

theorem append (left : Silent kinds) (right : Silent more) : Silent (kinds ++ more) where
  unmarked := by rw [List.filter_append, left.unmarked, right.unmarked, List.append_nil]
  neutral := left.neutral.append right.neutral

/-- Punctuation other than parentheses. -/
theorem sign {sign : Punctuation} (plain : Nesting.isPlain (.punctuation sign) = true) :
    Silent [.punctuation sign] :=
  ⟨rfl, (Nesting.settles_plain plain).neutral⟩

theorem comma : Silent [.punctuation .comma] := sign rfl

theorem bracketed (inside : Silent kinds) :
    Silent ([.punctuation .openBracket] ++ kinds ++ [.punctuation .closeBracket]) :=
  ((sign rfl).append inside).append (sign rfl)

end Silent

namespace Arena

/-- A node and what is below it were spelt with some tokens. -/
structure Spelt (arena : Arena) (node : NodeId) (kinds : List TokenKind) : Prop where
  carries : arena.Carries node (kinds.filter TokenKind.isMark)
  settles : Nesting.Settles kinds

/-- Some nodes were spelt with tokens one after the other, with separators in between.
`nest` is what the tokens leave open. -/
structure Lists (nest : List TokenKind → Prop) (arena : Arena) (nodes : List NodeId)
    (kinds : List TokenKind) : Prop where
  carries : arena.CarryAll nodes (kinds.filter TokenKind.isMark)
  nested : nest kinds

variable {arena after : Arena} {node : NodeId} {nodes : List NodeId} {kinds more : List TokenKind}
  {nest nest' : List TokenKind → Prop}

theorem Spelt.later (spelt : arena.Spelt node kinds)
    (keeps : ∀ id kind, arena.kind? id = some kind → after.kind? id = some kind) :
    after.Spelt node kinds :=
  ⟨spelt.carries.later keeps, spelt.settles⟩

namespace Lists

theorem nil (arena : Arena) : Lists Nesting.Neutral arena [] [] := ⟨.nil arena, .nil⟩

theorem later (lists : Lists nest arena nodes kinds)
    (keeps : ∀ id kind, arena.kind? id = some kind → after.kind? id = some kind) :
    Lists nest after nodes kinds :=
  ⟨lists.carries.later keeps, lists.nested⟩

theorem concat (lists : Lists Nesting.Neutral arena nodes kinds) (last : arena.Spelt node more) :
    Lists Nesting.Neutral arena (nodes ++ [node]) (kinds ++ more) where
  carries := by
    rw [List.filter_append]
    exact lists.carries.concat last.carries
  nested := lists.nested.append last.settles.neutral

/-- Tokens that separate nodes or close a list of them. -/
theorem followed (lists : Lists nest arena nodes kinds)
    (unmarked : more.filter TokenKind.isMark = []) (nested : nest' (kinds ++ more)) :
    Lists nest' arena nodes (kinds ++ more) where
  carries := by
    rw [List.filter_append, unmarked, List.append_nil]
    exact lists.carries
  nested := nested

theorem separated (lists : Lists Nesting.Neutral arena nodes kinds) (silent : Silent more) :
    Lists Nesting.Neutral arena nodes (kinds ++ more) :=
  lists.followed silent.unmarked (lists.nested.append silent.neutral)

theorem closed (lists : Lists Nesting.Neutral arena nodes kinds) :
    Lists Nesting.Closes arena nodes (kinds ++ [.punctuation .closeParen]) :=
  lists.followed rfl (lists.nested.closes Nesting.closes_paren)

/-- What was read behind an opening parenthesis. -/
theorem grouped (lists : Lists Nesting.Closes arena nodes kinds) :
    Lists Nesting.Settles arena nodes (.punctuation .openParen :: kinds) :=
  ⟨lists.carries, lists.nested.grouped⟩

end Lists

end Arena

theorem SourceTree.ensures_create {tree : SourceTree} {kind : NodeKind NodeId} {span : Span}
    {holds : NodeId → SourceTree → Prop} (met : holds ⟨tree.arena.size⟩ (tree.grown kind span)) :
    Ensures (create kind span) tree holds := by
  by_cases absent : tree.spans.span? ⟨tree.arena.size⟩ = none
  · exact (yields_create_new absent met).ensures
  · -- A number that has a span already is refused.
    have taken : tree.spans.contains ⟨tree.arena.size⟩ = true := by
      rw [SpanTable.contains_iff]
      exact Option.isSome_iff_ne_none.mpr absent
    have refused : (SpanTable.add ⟨tree.arena.size⟩ span).run tree.spans =
        .error (.duplicateSpan ⟨tree.arena.size⟩) tree.spans := by
      unfold SpanTable.add
      rw [EStateM.run_bind]
      simp [taken]
    have failed : (create kind span).run tree = .error (.duplicateSpan ⟨tree.arena.size⟩)
        { tree with arena := (tree.arena.alloc kind).2 } := by
      unfold create
      rw [EStateM.run_bind]
      change ((onSpans (SpanTable.add ⟨tree.arena.size⟩ span)) >>= fun _ =>
        pure ⟨tree.arena.size⟩ : Action NodeId).run { tree with arena := (tree.arena.alloc kind).2 } = _
      rw [EStateM.run_bind]
      unfold onSpans EStateM.run
      unfold EStateM.run at refused
      dsimp only
      rw [refused]
    exact ensures_of_failure failed holds

namespace ParserState

/-- A later state of a parser. -/
structure Goes (before after : ParserState) : Prop where
  cursor : before.context.cursor.Inside → before.context.cursor.Follows after.context.cursor
  diagnostics : before.context.diagnostics <+: after.context.diagnostics
  keeps : before.Keeps after

/-- Something was reported. -/
def Grows (before after : ParserState) : Prop :=
  before.context.diagnostics.length < after.context.diagnostics.length

/-- Reading went on, over exactly some tokens if nothing was reported. -/
structure Passes (kinds : List TokenKind) (before after : ParserState) : Prop where
  goes : before.Goes after
  read : before.context.cursor.Inside →
    after.context.diagnostics = before.context.diagnostics →
    after.context.cursor.behind = before.context.cursor.behind ++ kinds

variable {kinds more : List TokenKind} {first second third : ParserState}

theorem Goes.refl (state : ParserState) : state.Goes state :=
  ⟨.refl, List.prefix_refl _, .refl state⟩

theorem Goes.trans (left : first.Goes second) (right : second.Goes third) : first.Goes third where
  cursor inside := (left.cursor inside).trans (right.cursor (left.cursor inside).inside)
  diagnostics := left.diagnostics.trans right.diagnostics
  keeps := left.keeps.trans right.keeps

theorem Grows.before (left : first.Goes second) (right : second.Grows third) : first.Grows third :=
  Nat.lt_of_le_of_lt left.diagnostics.length_le right

theorem Grows.after (left : first.Grows second) (right : second.Goes third) : first.Grows third :=
  Nat.lt_of_lt_of_le left right.diagnostics.length_le

/-- Behind a report anything may have been passed over. -/
theorem Goes.passes (goes : first.Goes second) (grows : first.Grows second) :
    first.Passes kinds second where
  goes := goes
  read _ same := by
    unfold Grows at grows
    rw [same] at grows
    exact absurd grows (Nat.lt_irrefl _)

theorem Passes.refl (state : ParserState) : state.Passes [] state :=
  ⟨.refl state, fun _ _ => (List.append_nil _).symm⟩

theorem Passes.trans (left : first.Passes kinds second) (right : second.Passes more third) :
    first.Passes (kinds ++ more) third where
  goes := left.goes.trans right.goes
  read inside same := by
    have middle : second.context.diagnostics = first.context.diagnostics := by
      apply Eq.symm
      apply left.goes.diagnostics.eq_of_length_le
      rw [← same]
      exact right.goes.diagnostics.length_le
    rw [right.read (left.goes.cursor inside).inside (same.trans middle.symm),
      left.read inside middle, List.append_assoc]

/-- Passing over nothing that counts. -/
theorem Passes.on (left : first.Passes kinds second) (right : second.Passes [] third) :
    first.Passes kinds third := by
  have whole := left.trans right
  rw [List.append_nil] at whole
  exact whole

theorem Passes.since (left : first.Passes [] second) (right : second.Passes kinds third) :
    first.Passes kinds third :=
  left.trans right

/-- Moving the cursor on changes nothing else. -/
theorem goes_moved {start : ParserState} {cursor : Cursor}
    (moved : start.context.cursor.Inside → start.context.cursor.Follows cursor) :
    start.Goes { start with context := { start.context with cursor } } :=
  ⟨moved, List.prefix_refl _, .refl start⟩

/-- Skipping what says nothing. -/
theorem passes_skipped {skipped : TokenKind → Bool} (start : ParserState)
    (silent : ∀ kind, skipped kind = true → kind.solid = []) :
    start.Passes [] { start with context :=
      { start.context with cursor := start.context.cursor.skipWhile skipped } } where
  goes := goes_moved fun inside => Cursor.follows_skip_while skipped inside
  read inside _ := by
    rw [List.append_nil]
    exact Cursor.behind_skip_while silent inside

end ParserState

namespace Parser

open ParserState

variable {value : Type} {start : ParserState}

theorem ensures_context (start : ParserState) (holds : ParsingContext → ParserState → Prop) :
    Ensures context start holds ↔ holds start.context start :=
  ensures_of_run (show context.run start = .ok start.context start from rfl) holds

theorem ensures_current (start : ParserState) (holds : Token → ParserState → Prop) :
    Ensures current start holds ↔ holds start.context.current start :=
  ensures_of_run (show current.run start = .ok start.context.current start from rfl) holds

theorem ensures_remaining (start : ParserState) (holds : Nat → ParserState → Prop) :
    Ensures remaining start holds ↔ holds start.remaining start :=
  ensures_of_run (show remaining.run start = .ok start.remaining start from rfl) holds

theorem ensures_previous_end (start : ParserState) (holds : Position → ParserState → Prop) :
    Ensures previousEnd start holds ↔ holds start.passed start :=
  ensures_of_run (show previousEnd.run start = .ok start.passed start from rfl) holds

theorem ensures_kind (node : NodeId) (start : ParserState)
    (holds : Option (NodeKind NodeId) → ParserState → Prop) :
    Ensures (kind? node) start holds ↔ holds (start.tree.arena.kind? node) start :=
  ensures_of_run (show (kind? node).run start = .ok (start.tree.arena.kind? node) start from rfl) holds

theorem ensures_move (step : ParsingContext → ParsingContext) (start : ParserState)
    (holds : PUnit → ParserState → Prop) :
    Ensures (move step) start holds ↔ holds ⟨⟩ { start with context := step start.context } :=
  ensures_of_run (show (move step).run start = .ok ⟨⟩ { start with context := step start.context } from rfl) holds

theorem ensures_set_context (context : ParsingContext) (start : ParserState)
    (holds : PUnit → ParserState → Prop) :
    Ensures (setContext context) start holds ↔ holds ⟨⟩ { start with context } :=
  ensures_of_run (show (setContext context).run start = .ok ⟨⟩ { start with context } from rfl) holds

theorem ensures_on_tree (action : SourceTree.Action value) (start : ParserState)
    (holds : value → ParserState → Prop) :
    Ensures (onTree action) start holds ↔
      Ensures action start.tree fun result tree => holds result { start with tree } := by
  cases ran : action.run start.tree with
  | ok result tree =>
      have whole : (onTree action).run start = .ok result { start with tree } := by
        unfold EStateM.run onTree
        rw [ran]
      rw [ensures_of_run ran, ensures_of_run whole]
  | error failure tree =>
      have whole : (onTree action).run start = .error failure { start with tree } := by
        unfold EStateM.run onTree
        rw [ran]
      constructor
      · intro _
        exact ensures_of_failure ran _
      · intro _
        exact ensures_of_failure whole _

/-- The current token is passed over. -/
theorem ensures_advance {holds : PUnit → ParserState → Prop}
    (met : ∀ final, start.Passes start.context.current.kind.solid final → holds ⟨⟩ final) :
    Ensures advance start holds := by
  unfold advance
  rw [ensures_move]
  refine met _ ⟨goes_moved fun inside => Cursor.follows_advance_inline inside, ?_⟩
  intro inside _
  exact Cursor.behind_advance_inline inside

theorem ensures_skip_lines {holds : PUnit → ParserState → Prop}
    (met : ∀ final, start.Passes [] final → holds ⟨⟩ final) : Ensures skipLines start holds := by
  unfold skipLines
  rw [ensures_move]
  exact met _ (passes_skipped start fun _ => TokenKind.solid_of_trivia)

theorem ensures_report {kind : DiagnosticKind} {span : Span} {holds : PUnit → ParserState → Prop}
    (met : ∀ final, start.Goes final → start.Grows final → holds ⟨⟩ final) :
    Ensures (report kind span) start holds := by
  unfold report
  rw [ensures_move]
  apply met
  · exact ⟨.refl, List.prefix_append _ _, .refl start⟩
  · simp [Grows, ParsingContext.report]

theorem ensures_report_here {kind : DiagnosticKind} {holds : PUnit → ParserState → Prop}
    (met : ∀ final, start.Goes final → start.Grows final → holds ⟨⟩ final) :
    Ensures (reportHere kind) start holds := by
  unfold reportHere
  rw [ensures_move]
  apply met
  · exact ⟨.refl, List.prefix_append _ _, .refl start⟩
  · simp [Grows, ParsingContext.reportHere, ParsingContext.report]

theorem ensures_accept {mark : Punctuation} {holds : Bool → ParserState → Prop}
    (present : ∀ final, start.Passes [.punctuation mark] final → holds true final)
    (absent : holds false start) :
    Ensures (accept mark) start holds := by
  unfold accept
  rw [ensures_bind, ensures_context]
  split
  · rename_i found
    have kind : start.context.current.kind = .punctuation mark := eq_of_beq found
    rw [ensures_bind]
    apply ensures_advance
    intro final passes
    rw [kind] at passes
    exact (ensures_pure _ _ _).mpr (present final passes)
  · exact (ensures_pure _ _ _).mpr absent

theorem ensures_expect {mark : Punctuation} {missing : DiagnosticKind}
    {holds : PUnit → ParserState → Prop}
    (met : ∀ final, start.Passes [.punctuation mark] final → holds ⟨⟩ final) :
    Ensures (expect mark missing) start holds := by
  unfold expect
  rw [ensures_bind]
  apply ensures_accept
  · intro final passes
    exact (ensures_pure _ _ _).mpr (met final passes)
  · apply ensures_report_here
    intro final goes grows
    exact met final (goes.passes grows)

theorem ensures_word {holds : Option String → ParserState → Prop}
    (present : ∀ name final, start.Passes [.word name] final → holds (some name) final)
    (absent : holds none start) : Ensures word? start holds := by
  unfold word?
  rw [ensures_bind, ensures_current]
  split
  · rename_i name found
    have kind : start.context.current.kind = .word name := by
      unfold TokenKind.word? at found
      split at found
      · cases found
        assumption
      · cases found
    rw [ensures_bind]
    apply ensures_advance
    intro final passes
    rw [kind] at passes
    exact (ensures_pure _ _ _).mpr (present name final passes)
  · exact (ensures_pure _ _ _).mpr absent

/-- Making a node passes over nothing. -/
theorem ensures_create {made : NodeKind NodeId} {span : Span}
    {holds : NodeId → ParserState → Prop}
    (met : ∀ node final, start.Passes [] final → final.tree.arena.kind? node = some made →
      holds node final) :
    Ensures (onTree (SourceTree.create made span)) start holds := by
  rw [ensures_on_tree]
  apply SourceTree.ensures_create
  refine met _ _ ⟨⟨.refl, List.prefix_refl _, ?_⟩, fun _ _ => (List.append_nil _).symm⟩ ?_
  · intro id kind known
    rw [SourceTree.kind_grown, if_neg (Nat.ne_of_lt (Arena.kind_bound known))]
    exact known
  · rw [SourceTree.kind_grown, if_pos rfl]

theorem ensures_finish {made : NodeKind NodeId} {lower : Position}
    {holds : NodeId → ParserState → Prop}
    (met : ∀ node final, start.Passes [] final → final.tree.arena.kind? node = some made →
      holds node final) : Ensures (finish made lower) start holds := by
  unfold finish
  rw [ensures_bind, ensures_previous_end]
  exact ensures_create met

/-- A node is made that is spelt with what its slots were spelt with and its own tokens. -/
theorem ensures_made {made : NodeKind NodeId} {form : NodeKind (List TokenKind)} {lower : Position}
    {kinds : List TokenKind} {holds : NodeId → ParserState → Prop}
    (alike : made.Alike (fun _ child kinds => start.tree.arena.Carries child kinds) form)
    (same : form.marks = kinds.filter TokenKind.isMark) (settles : Nesting.Settles kinds)
    (met : ∀ node final, start.Passes [] final → final.tree.arena.kind? node = some made →
      final.tree.arena.Spelt node kinds → holds node final) :
    Ensures (finish made lower) start holds := by
  apply ensures_finish
  intro node final passes kind
  refine met node final passes kind ⟨?_, settles⟩
  rw [← same]
  apply Arena.carries_node kind
  apply alike.imp
  intro _ child kinds _ carries
  exact carries.later passes.goes.keeps

/-- What holds after a production that began at `start`: what it returns was spelt with
what it passed over. `loud` tells whether it always reports when it returns nothing. -/
structure Accounts (loud : Prop) (carried : Arena → value → List TokenKind → Prop)
    (start : ParserState) (result : Option value) (final : ParserState) : Prop where
  goes : start.Goes final
  grows : result = none → loud → start.Grows final
  passes : ∀ found, result = some found →
    ∃ kinds, carried final.tree.arena found kinds ∧ start.Passes kinds final

/-- A production that accounts for what it passes over, wherever it begins. -/
def Faithful (loud : Prop) (carried : Arena → value → List TokenKind → Prop)
    (production : Parser (Option value)) : Prop :=
  ∀ start, Ensures production start (Accounts loud carried start)

variable {loud loud' : Prop} {carried : Arena → value → List TokenKind → Prop}
  {origin state final : ParserState} {kinds : List TokenKind}

theorem accounts_none (goes : origin.Goes state) (grows : loud → origin.Grows state) :
    Accounts loud carried origin none state :=
  ⟨goes, fun _ => grows, by simp⟩

theorem accounts_some {found : value} (carries : carried state.tree.arena found kinds)
    (passes : origin.Passes kinds state) : Accounts loud carried origin (some found) state := by
  refine ⟨passes.goes, by simp, ?_⟩
  intro other same
  cases same
  exact ⟨kinds, carries, passes⟩

/-- A production that went over to another one before it passed over anything that
counts. -/
theorem Accounts.since {result : Option value} (accounts : Accounts loud carried state result final)
    (passes : origin.Passes [] state) : Accounts loud carried origin result final where
  goes := passes.goes.trans accounts.goes
  grows failed isLoud := (accounts.grows failed isLoud).before passes.goes
  passes found same := by
    rcases accounts.passes found same with ⟨kinds, carries, more⟩
    exact ⟨kinds, carries, passes.since more⟩

/-- What a production passed over comes behind what was passed over before it. -/
theorem Accounts.behind {result : Option value} {before : List TokenKind}
    (accounts : Accounts loud (fun arena value rest => carried arena value (before ++ kinds ++ rest))
      state result final) (passes : origin.Passes kinds state) :
    Accounts loud (fun arena value rest => carried arena value (before ++ rest)) origin result
      final where
  goes := passes.goes.trans accounts.goes
  grows failed isLoud := (accounts.grows failed isLoud).before passes.goes
  passes found same := by
    rcases accounts.passes found same with ⟨rest, carries, more⟩
    rw [List.append_assoc] at carries
    exact ⟨kinds ++ rest, carries, passes.trans more⟩

/-- The two ways in which a production ends. -/
theorem ensures_ends {production : Parser (Option value)} {holds : Option value → ParserState → Prop}
    (ran : Ensures production start (Accounts loud carried start))
    (present : ∀ found kinds final, carried final.tree.arena found kinds →
      start.Passes kinds final → holds (some found) final)
    (absent : ∀ final, start.Goes final → (loud → start.Grows final) → holds none final) :
    Ensures production start holds := by
  apply ran.weaken
  intro result final accounts
  cases result with
  | none => exact absent final accounts.goes (accounts.grows rfl)
  | some found =>
      rcases accounts.passes found rfl with ⟨kinds, carries, passes⟩
      exact present found kinds final carries passes

/-- What follows a production inside another one, which ends with it where it returns
nothing. -/
theorem accounts_then {other : Type} {production : Parser (Option other)}
    {carried' : Arena → other → List TokenKind → Prop}
    {next : Option other → Parser (Option value)}
    (ran : Ensures production state (Accounts loud' carried' state)) (goes : origin.Goes state)
    (told : loud → loud') (ends : next none = pure none)
    (present : ∀ found kinds final, carried' final.tree.arena found kinds →
      state.Passes kinds final → Ensures (next (some found)) final (Accounts loud carried origin)) :
    Ensures (production >>= next) state (Accounts loud carried origin) := by
  rw [ensures_bind]
  apply ensures_ends ran present
  intro final more grows
  rw [ends]
  apply (ensures_pure _ _ _).mpr
  exact accounts_none (goes.trans more) fun isLoud => (grows (told isLoud)).before goes

/-- A production that ends because something is missing, which it reports. -/
theorem accounts_missing {kind : DiagnosticKind} (goes : origin.Goes state) :
    Ensures (do
      reportHere kind
      return none) state (Accounts loud carried origin) := by
  rw [ensures_bind]
  apply ensures_report_here
  intro final more grows
  exact (ensures_pure _ _ _).mpr
    (accounts_none (goes.trans more) fun _ => grows.before goes)

/-- A production that ends with the making of its node. -/
theorem accounts_finish {made : NodeKind NodeId} {form : NodeKind (List TokenKind)}
    {lower : Position} (passes : origin.Passes kinds state)
    (alike : made.Alike (fun _ child kinds => state.tree.arena.Carries child kinds) form)
    (same : form.marks = kinds.filter TokenKind.isMark) (settles : Nesting.Settles kinds) :
    Ensures (do return some (← finish made lower)) state (Accounts loud Arena.Spelt origin) := by
  rw [ensures_bind]
  apply ensures_made alike same settles
  intro node final more _ spelt
  exact (ensures_pure _ _ _).mpr (accounts_some spelt (passes.on more))

/-- A fork that is merged has passed over what its production has; one that is dropped
has passed over nothing. -/
theorem ensures_attempt {production : Parser (Option value)}
    {holds : Option value → ParserState → Prop}
    (ran : Ensures production { start with context := start.context.fork }
      (Accounts loud carried { start with context := start.context.fork }))
    (taken : ∀ found kinds final, carried final.tree.arena found kinds →
      start.Passes kinds final → holds (some found) final)
    (dropped : ∀ final, start.Passes [] final → final.context = start.context →
      holds none final) : Ensures (attempt production) start holds := by
  unfold attempt
  rw [ensures_bind, ensures_context, ensures_bind, ensures_set_context, ensures_bind]
  apply ensures_ends ran
  · intro found kinds final carries passes
    have merged : start.context.cursor.Inside →
        (start.context.merge final.context).cursor = final.context.cursor := fun inside =>
      Cursor.restore_of_follows (passes.goes.cursor inside)
    rw [ensures_bind, ensures_move]
    apply (ensures_pure _ _ _).mpr
    refine taken found kinds _ carries ⟨⟨?_, List.prefix_append _ _, passes.goes.keeps⟩, ?_⟩
    · intro inside
      change start.context.cursor.Follows (start.context.merge final.context).cursor
      rw [merged inside]
      exact passes.goes.cursor inside
    · intro inside same
      change (start.context.merge final.context).cursor.behind = _
      rw [merged inside]
      exact passes.read inside (List.append_right_eq_self.mp same)
  · intro final goes _
    rw [ensures_bind, ensures_set_context]
    apply (ensures_pure _ _ _).mpr
    exact dropped _ ⟨⟨.refl, List.prefix_refl _, goes.keeps⟩,
      fun _ _ => (List.append_nil _).symm⟩ rfl

end Parser

end ModuleLang
