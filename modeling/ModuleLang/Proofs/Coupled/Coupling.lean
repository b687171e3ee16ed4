import ModuleLang.Parsing.Declaration
import ModuleLang.Proofs.Faithful.Passing
import ModuleLang.Proofs.Ensures
import ModuleLang.Proofs.Token.Rows

/-!
Two runs of the parser, over sequences of tokens that need not be the same. A coupling
says which states of the two belong together, and which steps of both keep them so: nodes
of the second run have numbers that are larger by `ids`, and it reads `rows` rows further
down. A lenient coupling may lose the second run where the first one has come to the end
of its file.
-/

namespace ModuleLang

/-- The node with a number that is larger by `ids`. -/
def NodeId.raised (ids : Nat) (id : NodeId) : NodeId := ⟨id.index + ids⟩

@[simp]
theorem NodeId.raised_zero (id : NodeId) : id.raised 0 = id := rfl

/-- The node with larger numbers in its slots. -/
def Node.raised (ids : Nat) (node : Node) : Node := ⟨node.kind.map (NodeId.raised ids), node.type⟩

namespace TokenKind

/-- Tokens that a coupling takes for the same: the end of the one file may be the end of a
row of the other. -/
def Alike (here there : TokenKind) : Prop :=
  here = there ∨ (here = .endOfFile ∧ there = .endOfLine)

theorem going_of_solid {kind : TokenKind} (solid : kind.isSolid = true) : kind ≠ .endOfFile := by
  rintro rfl
  cases solid

theorem going_of_operator {kind : TokenKind} {spelt : Operator} (same : kind = .operator spelt) :
    kind ≠ .endOfFile := by
  rw [same]
  exact TokenKind.noConfusion

/-- How many parentheses are open behind a token, if `depth` are open in front of it. -/
def depthBehind (depth : Nat) : TokenKind → Nat
  | .punctuation .openParen => depth + 1
  | .punctuation .closeParen => depth - 1
  | _ => depth

end TokenKind

/-- Which states of two runs belong together. -/
structure Coupling where
  ids : Nat
  rows : Nat
  /-- Whether the second run may be lost at the end of the first file. -/
  lenient : Prop
  trees : SourceTree → SourceTree → Prop
  /-- Contexts in front of the same token, with at least so many open parentheses. -/
  beside : Nat → ParsingContext → ParsingContext → Prop
  /-- Contexts in front of the same token between two items. -/
  ready : ParsingContext → ParsingContext → Prop
  /-- Contexts behind the last item of the first file. -/
  apart : ParsingContext → ParsingContext → Prop
  size : ∀ {here there}, trees here there → there.arena.size = here.arena.size + ids
  kind : ∀ {here there}, trees here there → ∀ id : NodeId,
    there.arena.kind? (id.raised ids) =
      (here.arena.kind? id).map (NodeKind.map (NodeId.raised ids))
  grown : ∀ {here there}, trees here there → ∀ kind span,
    trees (here.grown kind span) (there.grown (kind.map (NodeId.raised ids)) (span.lowered rows))
  inside : ∀ {depth here there}, beside depth here there → here.cursor.Inside
  alike : ∀ {depth here there}, beside depth here there →
    here.current.kind.Alike there.current.kind
  starts : ∀ {depth here there}, beside depth here there →
    there.current.span.start = here.current.span.start.lowered rows
  ends : ∀ {depth here there}, beside depth here there →
    there.cursor.previousEnd = here.cursor.previousEnd.lowered rows
  indented : ∀ {depth here there}, beside depth here there →
    there.cursor.indentation = here.cursor.indentation
  shallower : ∀ {depth less here there}, less ≤ depth → beside depth here there →
    beside less here there
  reportedHere : ∀ {depth here there}, beside depth here there → ∀ kind,
    beside depth (here.reportHere kind) (there.reportHere kind)
  reported : ∀ {depth here there}, beside depth here there → ∀ kind (span : Span),
    beside depth (here.report kind span) (there.report kind (span.lowered rows))
  forked : ∀ {depth here there}, beside depth here there → beside depth here.fork there.fork
  merged : ∀ {depth below here there ahead beyond}, beside depth here there →
    beside below ahead beyond → beside below (here.merge ahead) (there.merge beyond)
  advanced : ∀ {depth here there}, beside depth here there → here.current.kind.isSolid = true →
    beside (here.current.kind.depthBehind depth) here.advance there.advance
  /-- In parentheses the end of the file is not ahead. -/
  grouped : ∀ {depth here there}, beside (depth + 1) here there →
    beside (depth + 1) here.skipLines there.skipLines
  /-- Nor is it behind an operator that waits for an operand. -/
  waited : ∀ {depth here there spelt}, beside depth here there →
    here.current.kind = .operator spelt → spelt.bindingPower?.isSome = true →
    beside depth here.advance.skipLines there.advance.skipLines
  /-- Elsewhere it may be, and then no clause of a condition follows in the second file. -/
  skipped : ∀ {here there}, beside 0 here there →
    beside 0 here.skipLines there.skipLines ∧
        here.skipLines.current.kind = there.skipLines.current.kind ∨
      lenient ∧ (here.current.kind = .endOfLine ∨ here.current.kind = .endOfFile) ∧
        here.skipLines.current.kind = .endOfFile ∧
        there.skipLines.current.kind ≠ .keyword .elseWord
  finished : ∀ {here there}, beside 0 here there →
    beside 0 (here.skipUntil ParsingContext.endsStatement)
      (there.skipUntil ParsingContext.endsStatement)
  recovered : ∀ {here there}, beside 0 here there →
    beside 0 (here.skipUntil Parser.startsItem) (there.skipUntil Parser.startsItem) ∨
      lenient ∧ (here.skipUntil Parser.startsItem).current.kind = .endOfFile
  readied : ∀ {here there}, beside 0 here there → ready here.skipLines there.skipLines ∨
    lenient ∧ apart here there
  apartEnded : ∀ {here there}, apart here there → here.skipLines.current.kind = .endOfFile
  readyKind : ∀ {here there}, ready here there → there.current.kind = here.current.kind
  readySolid : ∀ {here there}, ready here there → here.current.kind ≠ .endOfFile →
    here.current.kind.isSolid = true
  readyStarts : ∀ {here there}, ready here there →
    there.current.span.start = here.current.span.start.lowered rows
  readyAdvanced : ∀ {here there}, ready here there → here.current.kind.isSolid = true →
    beside 0 here.advance there.advance
  readyPassed : ∀ {here there}, ready here there → here.current.kind.isSolid = true →
    Parser.startsItem here.current.kind = false →
    beside 0 (here.skipUntil Parser.startsItem) (there.skipUntil Parser.startsItem) ∨
      lenient ∧ (here.skipUntil Parser.startsItem).current.kind = .endOfFile
  /-- Whether an item moved on at all is seen in both runs. -/
  readyMoved : ∀ {here there ahead beyond}, ready here there → beside 0 ahead beyond →
    (ahead.cursor.position = here.cursor.position ∧
          beyond.cursor.position = there.cursor.position ∧
          ahead.current.kind = here.current.kind) ∨
      ahead.cursor.position ≠ here.cursor.position ∧
        beyond.cursor.position ≠ there.cursor.position

namespace SourceTree

variable {here there : SourceTree}

theorem size_of_same (same : there = here) : there.arena.size = here.arena.size :=
  congrArg (fun tree => tree.arena.size) same

/-- Nodes of the same tree, numbered as they are. -/
theorem kind_of_same (same : there = here) (id : NodeId) :
    there.arena.kind? (id.raised 0) = (here.arena.kind? id).map (NodeKind.map (NodeId.raised 0)) := by
  rw [same]
  cases found : here.arena.kind? id with
  | none => exact found
  | some kind => exact found.trans (congrArg some kind.map_id.symm)

theorem grown_of_same (same : there = here) (kind : NodeKind NodeId) (span : Span) :
    there.grown (kind.map (NodeId.raised 0)) (span.lowered 0) = here.grown kind span := by
  rw [same]
  exact congrArg (fun made => here.grown made span) kind.map_id

end SourceTree

/-- Where nothing is apart, all that is apart has come to its end. -/
theorem ParsingContext.ended_of_never {context : ParsingContext} (never : False) :
    context.skipLines.current.kind = .endOfFile := never.elim

namespace Coupling

variable (coupling : Coupling)

/-- States of the two runs that belong together. -/
structure Paired (depth : Nat) (start other : ParserState) : Prop where
  trees : coupling.trees start.tree other.tree
  contexts : coupling.beside depth start.context other.context

/-- Results of a production in both runs: none, or values that belong together. -/
inductive Agrees {value image : Type} (related : value → image → Prop) (depth : Nat) :
    Option value → ParserState → Option image → ParserState → Prop
  | missing {final last : ParserState} (paired : coupling.Paired 0 final last) :
      Agrees related depth none final none last
  | present {found : value} {partner : image} {final last : ParserState}
      (same : related found partner) (paired : coupling.Paired depth final last) :
      Agrees related depth (some found) final (some partner) last

/-- The partner of a node. -/
def Partner (node other : NodeId) : Prop := other = node.raised coupling.ids

/-- The partners of some nodes. -/
def Partners (nodes others : List NodeId) : Prop := others = nodes.map (NodeId.raised coupling.ids)

variable {coupling : Coupling} {depth less : Nat} {start other : ParserState}

theorem Partners.concat {nodes others : List NodeId} {node partner : NodeId}
    (all : coupling.Partners nodes others) (last : coupling.Partner node partner) :
    coupling.Partners (nodes ++ [node]) (others ++ [partner]) := by
  rw [Partners, List.map_append, ← all, List.map_singleton, ← last]

namespace Paired

theorem shallower (paired : coupling.Paired depth start other) (order : less ≤ depth) :
    coupling.Paired less start other :=
  ⟨paired.trees, coupling.shallower order paired.contexts⟩

/-- Other contexts for the same trees. -/
theorem moved {here there : ParsingContext} (paired : coupling.Paired depth start other)
    (beside : coupling.beside less here there) :
    coupling.Paired less { start with context := here } { other with context := there } :=
  ⟨paired.trees, beside⟩

theorem forked (paired : coupling.Paired depth start other) :
    coupling.Paired depth { start with context := start.context.fork }
      { other with context := other.context.fork } :=
  paired.moved (coupling.forked paired.contexts)

theorem alike (paired : coupling.Paired depth start other) :
    start.context.current.kind.Alike other.context.current.kind :=
  coupling.alike paired.contexts

/-- What is seen in a token, if it is the same in the end of the file and in that of a row. -/
theorem same_test {result : Type} {test : TokenKind → result} (paired : coupling.Paired depth start other)
    (same : test .endOfFile = test .endOfLine) :
    test other.context.current.kind = test start.context.current.kind := by
  rcases paired.alike with equal | ⟨file, row⟩
  · rw [equal]
  · rw [file, row, same]

theorem at_punctuation (paired : coupling.Paired depth start other) (mark : Punctuation) :
    other.context.atPunctuation mark = start.context.atPunctuation mark :=
  @same_test _ _ _ _ _ (fun kind => kind == .punctuation mark) paired rfl

theorem at_operator (paired : coupling.Paired depth start other) (spelt : Operator) :
    other.context.atOperator spelt = start.context.atOperator spelt :=
  @same_test _ _ _ _ _ (fun kind => kind == .operator spelt) paired rfl

theorem at_statement_end (paired : coupling.Paired depth start other) :
    other.context.atStatementEnd = start.context.atStatementEnd :=
  @same_test _ _ _ _ _ ParsingContext.endsStatement paired rfl

end Paired

end Coupling

namespace Parser

open ParserState

variable {coupling : Coupling} {depth below : Nat} {start other : ParserState}
  {value image : Type}

section Looking

theorem together_context (start other : ParserState)
    (holds : ParsingContext → ParserState → ParsingContext → ParserState → Prop) :
    Together context context start other holds ↔
      holds start.context start other.context other :=
  together_of_runs rfl rfl

theorem together_current (start other : ParserState)
    (holds : Token → ParserState → Token → ParserState → Prop) :
    Together current current start other holds ↔
      holds start.context.current start other.context.current other :=
  together_of_runs rfl rfl

theorem together_remaining (start other : ParserState)
    (holds : Nat → ParserState → Nat → ParserState → Prop) :
    Together remaining remaining start other holds ↔
      holds start.remaining start other.remaining other :=
  together_of_runs rfl rfl

theorem together_previous_end (start other : ParserState)
    (holds : Position → ParserState → Position → ParserState → Prop) :
    Together previousEnd previousEnd start other holds ↔
      holds start.passed start other.passed other :=
  together_of_runs rfl rfl

theorem together_kind (node twin : NodeId) (start other : ParserState)
    (holds : Option (NodeKind NodeId) → ParserState → Option (NodeKind NodeId) → ParserState →
      Prop) :
    Together (kind? node) (kind? twin) start other holds ↔
      holds (start.tree.arena.kind? node) start (other.tree.arena.kind? twin) other :=
  together_of_runs rfl rfl

theorem together_move (step leap : ParsingContext → ParsingContext) (start other : ParserState)
    (holds : PUnit → ParserState → PUnit → ParserState → Prop) :
    Together (move step) (move leap) start other holds ↔
      holds ⟨⟩ { start with context := step start.context } ⟨⟩
        { other with context := leap other.context } :=
  together_of_runs rfl rfl

theorem together_set_context (here there : ParsingContext) (start other : ParserState)
    (holds : PUnit → ParserState → PUnit → ParserState → Prop) :
    Together (setContext here) (setContext there) start other holds ↔
      holds ⟨⟩ { start with context := here } ⟨⟩ { other with context := there } :=
  together_of_runs rfl rfl

end Looking

section Steps

variable (paired : coupling.Paired depth start other)
  {holds : PUnit → ParserState → PUnit → ParserState → Prop}

include paired

theorem together_advance (solid : start.context.current.kind.isSolid = true)
    (met : ∀ final last, coupling.Paired (start.context.current.kind.depthBehind depth) final last →
      holds ⟨⟩ final ⟨⟩ last) : Together advance advance start other holds := by
  unfold advance
  rw [together_move]
  exact met _ _ (paired.moved (coupling.advanced paired.contexts solid))

theorem together_report_here {kind : DiagnosticKind}
    (met : ∀ final last, coupling.Paired depth final last → holds ⟨⟩ final ⟨⟩ last) :
    Together (reportHere kind) (reportHere kind) start other holds := by
  unfold reportHere
  rw [together_move]
  exact met _ _ (paired.moved (coupling.reportedHere paired.contexts kind))

theorem together_report {kind : DiagnosticKind} {span : Span}
    (met : ∀ final last, coupling.Paired depth final last → holds ⟨⟩ final ⟨⟩ last) :
    Together (report kind span) (report kind (span.lowered coupling.rows)) start other holds := by
  unfold report
  rw [together_move]
  exact met _ _ (paired.moved (coupling.reported paired.contexts kind span))

/-- In parentheses, what is skipped is the same. -/
theorem together_grouped {outer : Nat} (inside : depth = outer + 1)
    (met : ∀ final last, coupling.Paired depth final last → holds ⟨⟩ final ⟨⟩ last) :
    Together skipLines skipLines start other holds := by
  unfold skipLines
  rw [together_move]
  subst inside
  exact met _ _ (paired.moved (coupling.grouped paired.contexts))

end Steps

/-- A given punctuation is passed over by both runs, or by none. -/
theorem together_accept {mark : Punctuation}
    {holds : Bool → ParserState → Bool → ParserState → Prop}
    (paired : coupling.Paired depth start other)
    (present : ∀ final last,
      coupling.Paired ((TokenKind.punctuation mark).depthBehind depth) final last →
      holds true final true last)
    (absent : holds false start false other) :
    Together (accept mark) (accept mark) start other holds := by
  unfold accept
  rw [together_bind, together_context, paired.at_punctuation]
  split
  · rename_i found
    have kind : start.context.current.kind = .punctuation mark := eq_of_beq found
    rw [together_bind]
    apply together_advance paired
    · rw [kind]
      rfl
    · intro final last paired
      rw [kind] at paired
      exact (together_pure _ _).mpr (present final last paired)
  · exact (together_pure _ _).mpr absent

theorem together_expect {mark : Punctuation} {missing : DiagnosticKind}
    {holds : PUnit → ParserState → PUnit → ParserState → Prop}
    (paired : coupling.Paired depth start other)
    (shallow : below ≤ (TokenKind.punctuation mark).depthBehind depth ∧ below ≤ depth)
    (met : ∀ final last, coupling.Paired below final last → holds ⟨⟩ final ⟨⟩ last) :
    Together (expect mark missing) (expect mark missing) start other holds := by
  unfold expect
  rw [together_bind]
  apply together_accept paired
  · intro final last paired
    exact (together_pure _ _).mpr (met final last (paired.shallower shallow.1))
  · apply together_report_here paired
    intro final last paired
    exact met final last (paired.shallower shallow.2)

theorem together_word {holds : Option String → ParserState → Option String → ParserState → Prop}
    (paired : coupling.Paired depth start other)
    (present : ∀ name final last, coupling.Paired depth final last →
      holds (some name) final (some name) last)
    (absent : holds none start none other) : Together word? word? start other holds := by
  have same : other.context.current.kind.word? = start.context.current.kind.word? := by
    rcases paired.alike with equal | ⟨file, row⟩
    · rw [equal]
    · rw [file, row]
      rfl
  unfold word?
  rw [together_bind, together_current, same]
  split
  · rename_i name found
    have kind : start.context.current.kind = .word name := by
      unfold TokenKind.word? at found
      split at found
      · cases found
        assumption
      · cases found
    rw [together_bind]
    apply together_advance paired
    · rw [kind]
      rfl
    · intro final last paired
      rw [kind] at paired
      exact (together_pure _ _).mpr (present name final last paired)
  · exact (together_pure _ _).mpr absent

section Results

variable {related : value → image → Prop} {found partner : Type} {same : found → partner → Prop}

/-- A production inside another one, which ends with it where it returns nothing. -/
theorem together_then {production : Parser (Option value)} {twin : Parser (Option image)}
    {next : Option value → Parser (Option found)} {after : Option image → Parser (Option partner)}
    (ran : Together production twin start other (coupling.Agrees related below))
    (ends : next none = pure none) (also : after none = pure none)
    (present : ∀ value image final last, related value image → coupling.Paired below final last →
      Together (next (some value)) (after (some image)) final last
        (coupling.Agrees same depth)) :
    Together (production >>= next) (twin >>= after) start other (coupling.Agrees same depth) := by
  rw [together_bind]
  apply ran.weaken
  intro result final image last agrees
  cases agrees with
  | missing paired =>
      rw [ends, also]
      exact (together_pure _ _).mpr (.missing paired)
  | present partners paired => exact present _ _ _ _ partners paired

theorem together_some {value : value} {image : image} (partners : related value image)
    (paired : coupling.Paired depth start other) :
    Together (pure (some value) : Parser _) (pure (some image) : Parser _) start other
      (coupling.Agrees related depth) :=
  (together_pure _ _).mpr (.present partners paired)

theorem together_none (paired : coupling.Paired depth start other) :
    Together (pure none : Parser (Option value)) (pure none : Parser (Option image)) start other
      (coupling.Agrees related below) :=
  (together_pure _ _).mpr (.missing (paired.shallower (Nat.zero_le _)))

/-- A production that ends because something is missing, which it reports. -/
theorem together_missing {kind : DiagnosticKind} (paired : coupling.Paired depth start other) :
    Together (do
      reportHere kind
      return (none : Option value)) (do
      reportHere kind
      return (none : Option image)) start other (coupling.Agrees related below) := by
  rw [together_bind]
  apply together_report_here paired
  intro final last paired
  exact together_none paired

/-- What is tried out is kept by both runs, or by none. -/
theorem together_attempt {production : Parser (Option value)} {twin : Parser (Option image)}
    {holds : Option value → ParserState → Option image → ParserState → Prop}
    (paired : coupling.Paired depth start other)
    (ran : Together production twin { start with context := start.context.fork }
      { other with context := other.context.fork } (coupling.Agrees related below))
    (present : ∀ value image final last, related value image → coupling.Paired below final last →
      holds (some value) final (some image) last)
    (missing : ∀ final last, final.context = start.context → coupling.Paired depth final last →
      holds none final none last) :
    Together (attempt production) (attempt twin) start other holds := by
  unfold attempt
  rw [together_bind, together_context, together_bind, together_set_context, together_bind]
  apply ran.weaken
  intro result final image last agrees
  cases agrees with
  | missing inner =>
      dsimp only
      rw [together_bind, together_set_context]
      exact (together_pure _ _).mpr (missing _ _ rfl ⟨inner.trees, paired.contexts⟩)
  | present partners inner =>
      dsimp only
      rw [together_bind, together_move]
      apply (together_pure _ _).mpr
      exact present _ _ _ _ partners
        (inner.moved (coupling.merged paired.contexts inner.contexts))

end Results

/-- Both runs make a node. -/
theorem together_create {kind : NodeKind NodeId} {span : Span}
    {holds : NodeId → ParserState → NodeId → ParserState → Prop}
    (paired : coupling.Paired depth start other)
    (met : ∀ node final last, coupling.Paired depth final last →
      holds node final (node.raised coupling.ids) last) :
    Together (onTree (SourceTree.create kind span))
      (onTree (SourceTree.create (kind.map (NodeId.raised coupling.ids))
        (span.lowered coupling.rows))) start other holds := by
  have left : Ensures (onTree (SourceTree.create kind span)) start fun node final =>
      node = ⟨start.tree.arena.size⟩ ∧ final = { start with tree := start.tree.grown kind span } := by
    rw [ensures_on_tree]
    apply SourceTree.ensures_create
    exact ⟨rfl, rfl⟩
  have right : Ensures (onTree (SourceTree.create (kind.map (NodeId.raised coupling.ids))
      (span.lowered coupling.rows))) other fun node final =>
      node = ⟨other.tree.arena.size⟩ ∧ final = { other with
        tree := other.tree.grown (kind.map (NodeId.raised coupling.ids))
          (span.lowered coupling.rows) } := by
    rw [ensures_on_tree]
    apply SourceTree.ensures_create
    exact ⟨rfl, rfl⟩
  constructor
  intro node final twin last ran also
  rcases left.met _ _ ran with ⟨rfl, rfl⟩
  rcases right.met _ _ also with ⟨rfl, rfl⟩
  rw [coupling.size paired.trees]
  exact met _ _ _ ⟨coupling.grown paired.trees kind span, paired.contexts⟩

/-- Both runs make a node that spans from some place to the last token moved past. -/
theorem together_finish {made mirror : NodeKind NodeId} {lower upper : Position}
    {holds : NodeId → ParserState → NodeId → ParserState → Prop}
    (paired : coupling.Paired depth start other)
    (kinds : mirror = made.map (NodeId.raised coupling.ids))
    (starts : upper = lower.lowered coupling.rows)
    (met : ∀ node final last, coupling.Paired depth final last →
      holds node final (node.raised coupling.ids) last) :
    Together (finish made lower) (finish mirror upper) start other holds := by
  subst kinds
  subst starts
  have passed : other.passed = start.passed.lowered coupling.rows :=
    coupling.ends paired.contexts
  unfold finish
  rw [together_bind, together_previous_end, passed, ← Span.lowered_reaching]
  exact together_create paired met

/-- A production that ends with the making of its node. -/
theorem together_made {made mirror : NodeKind NodeId} {lower upper : Position}
    (paired : coupling.Paired depth start other)
    (kinds : mirror = made.map (NodeId.raised coupling.ids))
    (starts : upper = lower.lowered coupling.rows) :
    Together (do return some (← finish made lower)) (do return some (← finish mirror upper)) start
      other (coupling.Agrees coupling.Partner depth) := by
  rw [together_bind]
  apply together_finish paired kinds starts
  intro node final last paired
  exact together_some rfl paired

end Parser

end ModuleLang
