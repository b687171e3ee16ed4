import ModuleLang.Parsing.Basic
import ModuleLang.Proofs.Token.Layout
import ModuleLang.Proofs.Tree.Construction

/-!
What every production keeps. A production never fails, moves its cursor only
forward, keeps what was reported, and extends the tree. Where it returns a node,
it has moved past a token and the node waits for its parent. `Parsed` states this
for one production; the rules below are used to put it together for a production
from its parts.
-/

namespace ModuleLang

namespace ParserState

/-- A state that productions run from and leave. -/
structure Sound (limit : Position) (state : ParserState) : Prop where
  inside : state.context.cursor.Inside
  laid : state.context.cursor.sequence.LaidOut limit
  reported : ∀ found ∈ state.context.diagnostics, found.span.stop ≤ limit
  constructed : state.tree.Constructed limit

/-- One state was reached from another one. -/
structure Reaches (limit : Position) (before after : ParserState) : Prop where
  sound : after.Sound limit
  cursor : before.context.cursor.Follows after.context.cursor
  fileName : after.context.fileName = before.context.fileName
  diagnostics : before.context.diagnostics <+: after.context.diagnostics
  tree : before.tree.Extends after.tree

def position (state : ParserState) : Nat := state.context.cursor.position

/-- Where the current token starts. -/
def here (state : ParserState) : Position := state.context.current.span.start

/-- Where the last token moved past ends. -/
def passed (state : ParserState) : Position := state.context.cursor.previousEnd

/-- Number of tokens from the current one on. -/
def remaining (state : ParserState) : Nat := state.context.cursor.remaining

variable {limit : Position}

theorem Reaches.refl {state : ParserState} (sound : state.Sound limit) :
    state.Reaches limit state :=
  ⟨sound, .refl sound.inside, rfl, List.prefix_refl _, .refl _⟩

theorem Reaches.trans {first second third : ParserState} (left : first.Reaches limit second)
    (right : second.Reaches limit third) : first.Reaches limit third where
  sound := right.sound
  cursor := left.cursor.trans right.cursor
  fileName := right.fileName.trans left.fileName
  diagnostics := left.diagnostics.trans right.diagnostics
  tree := left.tree.trans right.tree

theorem Reaches.position {before after : ParserState} (moved : before.Reaches limit after) :
    before.position ≤ after.position :=
  moved.cursor.position

theorem Reaches.length {before after : ParserState} (moved : before.Reaches limit after) :
    before.context.diagnostics.length ≤ after.context.diagnostics.length :=
  moved.diagnostics.length_le

theorem Reaches.passed {before after : ParserState} (sound : before.Sound limit)
    (moved : before.Reaches limit after) : before.passed ≤ after.passed :=
  Cursor.previous_end_mono sound.laid moved.cursor

theorem passed_le_here {state : ParserState} (sound : state.Sound limit) :
    state.passed ≤ state.here :=
  Cursor.previous_end_le_current sound.laid sound.inside

theorem passed_le_limit {state : ParserState} (sound : state.Sound limit) :
    state.passed ≤ limit :=
  Cursor.previous_end_le_limit sound.laid sound.inside

/-- Once the current token is moved past, so is its start. -/
theorem here_lt_passed {before after : ParserState} (moved : before.Reaches limit after)
    (ahead : before.position < after.position)
    (going : before.context.current.kind ≠ .endOfFile)
    (solid : before.context.current.isTrivia = false) : before.here < after.passed := by
  have sequence := moved.cursor.sequence
  have stop := Cursor.stop_le_previous_end moved.sound.laid moved.sound.inside ahead
    (by rw [sequence]; exact solid)
  have filled := moved.sound.laid.filled before.position (by rw [sequence]; exact going)
  rw [sequence] at stop filled
  exact Position.lt_of_lt_of_le filled stop

/-- A span from the current token to the last one moved past. -/
theorem reaching_le_limit {before after : ParserState} (start : before.Sound limit)
    (sound : after.Sound limit) : (Span.reaching before.here after.passed).stop ≤ limit := by
  change max before.here after.passed ≤ limit
  simp only [max]
  split
  · exact passed_le_limit sound
  · exact Position.le_trans before.context.current.span.ordered (start.laid.inside _)

theorem remaining_of_reaches {before after : ParserState} {budget : Nat}
    (moved : before.Reaches limit after) (ahead : before.position < after.position)
    (enough : before.remaining ≤ budget + 1) : after.remaining ≤ budget := by
  have sequence := moved.cursor.sequence
  unfold remaining Cursor.remaining at *
  unfold ParserState.position at ahead
  rw [sequence]
  omega

theorem remaining_mono {before after : ParserState} (moved : before.Reaches limit after) :
    after.remaining ≤ before.remaining := by
  have sequence := moved.cursor.sequence
  have position := moved.cursor.position
  unfold remaining Cursor.remaining
  rw [sequence]
  omega

theorem remaining_of_context {before after : ParserState}
    (same : after.context = before.context) : after.remaining = before.remaining := by
  unfold remaining
  rw [same]

theorem remaining_pos {state : ParserState} (sound : state.Sound limit) : 0 < state.remaining :=
  Cursor.remaining_pos sound.inside

/-- The nodes that were built between two states and wait for a parent. -/
def Holds (before after : ParserState) (lower : Position) (slots : List (Category × NodeId)) :
    Prop :=
  SourceTree.Builds before.tree.arena.size after.tree lower after.passed slots

namespace Holds

theorem nil (before after : ParserState) (lower : Position) : before.Holds after lower [] :=
  SourceTree.Builds.nil _ _ _ _

theorem later {origin before after : ParserState} {lower : Position}
    {slots : List (Category × NodeId)} (held : origin.Holds before lower slots)
    (sound : before.Sound limit) (moved : before.Reaches limit after) :
    origin.Holds after lower slots :=
  SourceTree.Builds.later held moved.tree (moved.passed sound)

theorem weaken {origin before after : ParserState} {lower lowest : Position}
    {slots : List (Category × NodeId)} (held : before.Holds after lower slots)
    (moved : origin.Reaches limit before) (order : lowest ≤ lower) :
    origin.Holds after lowest slots :=
  SourceTree.Builds.weaken held moved.tree.size order

/-- What a production built comes behind what was there when it began. -/
theorem append {origin before after : ParserState} {lower lower' : Position}
    {first second : List (Category × NodeId)} (left : origin.Holds before lower first)
    (sound : before.Sound limit) (reached : origin.Reaches limit before)
    (moved : before.Reaches limit after)
    (right : before.Holds after lower' second) (order : lower ≤ before.passed)
    (starts : before.passed ≤ lower') : origin.Holds after lower (first ++ second) :=
  SourceTree.Builds.append left moved.tree right reached.tree.size (Nat.le_refl _)
    (Position.le_trans order starts) starts (moved.passed sound)

theorem admitted {before after : ParserState} {lower : Position} {category : Category}
    {node : NodeId} (held : before.Holds after lower [(category, node)]) :
    after.tree.arena.Admitted category node :=
  (SourceTree.Builds.each held _ (List.mem_singleton_self _)).2

/-- A node that may stand in slots of another category can be used there. -/
theorem recast {before after : ParserState} {lower : Position} {category other : Category}
    {node : NodeId} (held : before.Holds after lower [(category, node)]) (solid : category ≠ .body)
    (fits : after.tree.arena.Admitted other node) : before.Holds after lower [(other, node)] where
  each := by
    intro slot inside
    rw [List.mem_singleton] at inside
    subst inside
    exact ⟨(SourceTree.Builds.each held _ (List.mem_singleton_self _)).1, fits⟩
  filled := by
    intro slot inside _
    rw [List.mem_singleton] at inside
    subst inside
    exact SourceTree.Builds.filled held (category, node) (List.mem_singleton_self _) solid
  apart := List.pairwise_singleton _ _

end Holds

/-- A production that began at `origin` has moved past `lower`, the earliest start
of its nodes, and holds the nodes for some slots. -/
structure Underway (limit lower : Position) (slots : List (Category × NodeId))
    (origin state : ParserState) : Prop where
  reached : origin.Reaches limit state
  ahead : origin.position < state.position
  starts : lower < state.passed
  held : origin.Holds state lower slots

namespace Underway

variable {lower : Position} {slots : List (Category × NodeId)} {origin state : ParserState}

/-- A production is under way once it has moved past its first token. -/
theorem begin {start : ParserState} (moved : start.Reaches limit state)
    (ahead : start.position < state.position) (passed : start.here < state.passed) :
    Underway limit start.here [] start state :=
  ⟨moved, ahead, passed, .nil _ _ _⟩

theorem sound (under : Underway limit lower slots origin state) : state.Sound limit :=
  under.reached.sound

theorem later {after : ParserState} (under : Underway limit lower slots origin state)
    (moved : state.Reaches limit after) : Underway limit lower slots origin after where
  reached := under.reached.trans moved
  ahead := Nat.lt_of_lt_of_le under.ahead moved.position
  starts := Position.lt_of_lt_of_le under.starts (moved.passed under.sound)
  held := under.held.later under.sound moved

/-- Nodes that are built next come behind those that are held. -/
theorem append {after : ParserState} {lower' : Position} {more : List (Category × NodeId)}
    (under : Underway limit lower slots origin state) (moved : state.Reaches limit after)
    (held : state.Holds after lower' more) (starts : state.passed ≤ lower') :
    Underway limit lower (slots ++ more) origin after where
  reached := under.reached.trans moved
  ahead := Nat.lt_of_lt_of_le under.ahead moved.position
  starts := Position.lt_of_lt_of_le under.starts (moved.passed under.sound)
  held := under.held.append under.sound under.reached moved held (Position.le_of_lt under.starts)
    starts

/-- A production that began at `origin` may have less room than it. -/
theorem remaining {budget : Nat} (under : Underway limit lower slots origin state)
    (enough : origin.remaining ≤ budget + 1) : state.remaining ≤ budget :=
  remaining_of_reaches under.reached under.ahead enough

end Underway

end ParserState

namespace Parser

open ParserState

/-- What holds after a production that began at `start`. `lower` bounds the start
of the nodes in its result; `loud` tells whether it always reports when it
returns none. -/
structure Parsed {value : Type} (limit : Position) (loud : Prop) (lower : Position)
    (slots : value → List (Category × NodeId)) (start : ParserState) (result : Option value)
    (final : ParserState) : Prop where
  reached : start.Reaches limit final
  reported : result = none → loud →
    start.context.diagnostics.length < final.context.diagnostics.length
  made : ∀ found, result = some found → Underway limit lower (slots found) start final

/-- A production for one node. -/
def Parses (limit : Position) (category : Category) (loud : Prop) (lower : Position)
    (production : Parser (Option NodeId)) (start : ParserState) : Prop :=
  Yields production start (Parsed limit loud lower (fun node => [(category, node)]) start)

variable {value : Type} {limit : Position}

theorem yields_on_tree (action : SourceTree.Action value) (start : ParserState)
    (holds : value → ParserState → Prop) :
    Yields (onTree action) start holds ↔
      Yields action start.tree fun result tree => holds result { start with tree } := by
  unfold Yields EStateM.run onTree EStateM.run
  cases action start.tree <;> rfl

theorem yields_context (start : ParserState) (holds : ParsingContext → ParserState → Prop) :
    Yields context start holds ↔ holds start.context start :=
  Iff.rfl

theorem yields_current (start : ParserState) (holds : Token → ParserState → Prop) :
    Yields current start holds ↔ holds start.context.current start :=
  Iff.rfl

theorem yields_remaining (start : ParserState) (holds : Nat → ParserState → Prop) :
    Yields remaining start holds ↔ holds start.remaining start :=
  Iff.rfl

theorem yields_previous_end (start : ParserState) (holds : Position → ParserState → Prop) :
    Yields previousEnd start holds ↔ holds start.passed start :=
  Iff.rfl

theorem yields_kind (node : NodeId) (start : ParserState)
    (holds : Option (NodeKind NodeId) → ParserState → Prop) :
    Yields (kind? node) start holds ↔ holds (start.tree.arena.kind? node) start :=
  Iff.rfl

theorem yields_move (step : ParsingContext → ParsingContext) (start : ParserState)
    (holds : PUnit → ParserState → Prop) :
    Yields (move step) start holds ↔ holds ⟨⟩ { start with context := step start.context } :=
  Iff.rfl

theorem yields_set_context (context : ParsingContext) (start : ParserState)
    (holds : PUnit → ParserState → Prop) :
    Yields (setContext context) start holds ↔ holds ⟨⟩ { start with context } :=
  Iff.rfl

/-- Moving the cursor on changes nothing else. -/
theorem reaches_moved {start : ParserState} (sound : start.Sound limit) {cursor : Cursor}
    (moved : start.context.cursor.Follows cursor) :
    start.Reaches limit { start with context := { start.context with cursor } } where
  sound :=
    { inside := moved.inside
      laid := by
        rw [moved.sequence]
        exact sound.laid
      reported := sound.reported
      constructed := sound.constructed }
  cursor := moved
  fileName := rfl
  diagnostics := List.prefix_refl _
  tree := .refl _

theorem reaches_reported {start : ParserState} (sound : start.Sound limit) (kind : DiagnosticKind)
    {span : Span} (inside : span.stop ≤ limit) :
    start.Reaches limit { start with context := start.context.report kind span } where
  sound :=
    { inside := sound.inside
      laid := sound.laid
      reported := by
        intro found member
        obtain old | new := List.mem_append.mp member
        · exact sound.reported found old
        · rw [List.mem_singleton] at new
          subst new
          exact inside
      constructed := sound.constructed }
  cursor := .refl sound.inside
  fileName := rfl
  diagnostics := List.prefix_append _ _
  tree := .refl _

theorem yields_advance {start : ParserState} {holds : PUnit → ParserState → Prop}
    (sound : start.Sound limit)
    (met : ∀ final, start.Reaches limit final →
      (start.context.current.kind ≠ .endOfFile → start.position < final.position) →
      final.tree = start.tree → final.context.diagnostics = start.context.diagnostics →
      holds ⟨⟩ final) :
    Yields advance start holds := by
  unfold advance
  rw [yields_move]
  refine met _ (reaches_moved sound (Cursor.follows_advance_inline sound.inside)) ?_ rfl rfl
  intro going
  exact Cursor.advance_inline_strict sound.inside
    (by simpa [Cursor.atEnd, ParsingContext.current] using going)

/-- Moving past the keyword that begins a production. -/
theorem yields_begin {start : ParserState} {holds : PUnit → ParserState → Prop}
    (sound : start.Sound limit) (going : start.context.current.kind ≠ .endOfFile)
    (solid : start.context.current.isTrivia = false)
    (met : ∀ final, Underway limit start.here [] start final → holds ⟨⟩ final) :
    Yields advance start holds := by
  refine yields_advance sound fun final moved ahead _ _ => ?_
  exact met final (.begin moved (ahead going) (here_lt_passed moved (ahead going) going solid))

theorem yields_skip_lines {start : ParserState} {holds : PUnit → ParserState → Prop}
    (sound : start.Sound limit)
    (met : ∀ final, start.Reaches limit final → holds ⟨⟩ final) :
    Yields skipLines start holds := by
  unfold skipLines
  rw [yields_move]
  exact met _ (reaches_moved sound (Cursor.follows_skip_while _ sound.inside))

theorem yields_report {start : ParserState} {holds : PUnit → ParserState → Prop}
    {kind : DiagnosticKind} {span : Span} (sound : start.Sound limit) (inside : span.stop ≤ limit)
    (met : ∀ final, start.Reaches limit final →
      start.context.diagnostics.length < final.context.diagnostics.length → holds ⟨⟩ final) :
    Yields (report kind span) start holds := by
  unfold report
  rw [yields_move]
  exact met _ (reaches_reported sound kind inside) (by simp [ParsingContext.report])

theorem yields_report_here {start : ParserState} {holds : PUnit → ParserState → Prop}
    {kind : DiagnosticKind} (sound : start.Sound limit)
    (met : ∀ final, start.Reaches limit final →
      start.context.diagnostics.length < final.context.diagnostics.length → holds ⟨⟩ final) :
    Yields (reportHere kind) start holds := by
  unfold reportHere
  rw [yields_move]
  exact met _ (reaches_reported sound kind (sound.laid.inside _))
    (by simp [ParsingContext.reportHere, ParsingContext.report])

theorem yields_accept {start : ParserState} {holds : Bool → ParserState → Prop}
    {mark : Punctuation} (sound : start.Sound limit)
    (present : ∀ final, start.Reaches limit final → start.position < final.position →
      start.here < final.passed → holds true final)
    (absent : holds false start) : Yields (accept mark) start holds := by
  unfold accept
  rw [yields_bind, yields_context]
  split
  · rename_i found
    have kind : start.context.current.kind = .punctuation mark := by
      simpa [ParsingContext.atPunctuation] using found
    rw [yields_bind]
    refine yields_advance sound fun final reached ahead _ _ => ?_
    have going : start.context.current.kind ≠ .endOfFile := by simp [kind]
    exact present final reached (ahead going) (here_lt_passed reached (ahead going) going
      (by simp [Token.isTrivia, kind, TokenKind.isTrivia]))
  · exact absent

theorem yields_expect {start : ParserState} {holds : PUnit → ParserState → Prop}
    {mark : Punctuation} {missing : DiagnosticKind} (sound : start.Sound limit)
    (met : ∀ final, start.Reaches limit final → holds ⟨⟩ final) :
    Yields (expect mark missing) start holds := by
  unfold expect
  rw [yields_bind]
  refine yields_accept sound ?_ ?_
  · intro final reached _ _
    exact met final reached
  · exact yields_report_here sound fun final reached _ => met final reached

theorem yields_word {start : ParserState} {holds : Option String → ParserState → Prop}
    (sound : start.Sound limit)
    (present : ∀ name final, start.Reaches limit final → start.position < final.position →
      start.here < final.passed → holds (some name) final)
    (absent : holds none start) : Yields word? start holds := by
  unfold word?
  rw [yields_bind, yields_current]
  split
  · rename_i name found
    rw [yields_bind]
    refine yields_advance sound fun final reached ahead _ _ => ?_
    have kind : start.context.current.kind = .word name := by
      unfold TokenKind.word? at found
      split at found
      · cases found
        assumption
      · cases found
    have going : start.context.current.kind ≠ .endOfFile := by simp [kind]
    exact present name final reached (ahead going) (here_lt_passed reached (ahead going) going
      (by simp [Token.isTrivia, kind, TokenKind.isTrivia]))
  · exact absent

/-- Adopting the place of a fork that skipped line ends is skipping them. -/
theorem merge_fork_skip_lines {context : ParsingContext} (inside : context.cursor.Inside) :
    context.merge context.fork.skipLines = context.skipLines := by
  have cursor : context.cursor.restore context.cursor.skipLines.position =
      context.cursor.skipLines :=
    Cursor.restore_of_follows (Cursor.follows_skip_while _ inside)
  simp [ParsingContext.merge, ParsingContext.fork, ParsingContext.skipLines, cursor]

theorem yields_skip_until {stops : TokenKind → Bool} {start : ParserState}
    {holds : PUnit → ParserState → Prop} (sound : start.Sound limit)
    (met : ∀ final, start.Reaches limit final → holds ⟨⟩ final) :
    Yields (move (ParsingContext.skipUntil stops)) start holds := by
  rw [yields_move]
  exact met _ (reaches_moved sound (Cursor.follows_skip_while _ sound.inside))

/-- A fork whose production returned is merged, any other one is dropped. -/
theorem yields_attempt {production : Parser (Option value)} {start : ParserState}
    {holds : Option value → ParserState → Prop} (sound : start.Sound limit)
    (ran : Yields production { start with context := start.context.fork } fun result final =>
      ParserState.Reaches limit { start with context := start.context.fork } final ∧
      ∀ after, start.Reaches limit after → after.tree = final.tree →
        (∀ found, result = some found → after.context.cursor = final.context.cursor →
          holds (some found) after) ∧
        (result = none → after.context = start.context → holds none after)) :
    Yields (attempt production) start holds := by
  unfold attempt
  rw [yields_bind, yields_context, yields_bind, yields_set_context, yields_bind]
  refine ran.weaken fun result final held => ?_
  obtain ⟨reached, met⟩ := held
  cases result with
  | some found =>
      rw [yields_bind, yields_move]
      have cursor : (start.context.merge final.context).cursor = final.context.cursor :=
        Cursor.restore_of_follows reached.cursor
      refine (met { final with context := start.context.merge final.context } ?_ rfl).1 found rfl
        cursor
      refine ⟨⟨?_, ?_, ?_, reached.sound.constructed⟩, ?_, rfl, List.prefix_append _ _,
        reached.tree⟩
      · change (start.context.merge final.context).cursor.Inside
        rw [cursor]
        exact reached.sound.inside
      · change (start.context.merge final.context).cursor.sequence.LaidOut limit
        rw [cursor]
        exact reached.sound.laid
      · intro report member
        obtain old | new := List.mem_append.mp member
        · exact sound.reported report old
        · exact reached.sound.reported report new
      · change start.context.cursor.Follows (start.context.merge final.context).cursor
        rw [cursor]
        exact reached.cursor
  | none =>
      rw [yields_bind, yields_set_context]
      refine (met { final with context := start.context } ?_ rfl).2 rfl rfl
      exact ⟨⟨sound.inside, sound.laid, sound.reported, reached.sound.constructed⟩,
        .refl sound.inside, rfl, List.prefix_refl _, reached.tree⟩

/-- The state of a fork. -/
theorem sound_fork {start : ParserState} (sound : start.Sound limit) :
    ParserState.Sound limit { start with context := start.context.fork } :=
  ⟨sound.inside, sound.laid, by simp [ParsingContext.fork], sound.constructed⟩

theorem parsed_attempt {loud : Prop} {lower : Position}
    {slots : value → List (Category × NodeId)} {production : Parser (Option value)}
    {start : ParserState} (sound : start.Sound limit)
    (ran : Yields production { start with context := start.context.fork }
      (Parsed limit loud lower slots { start with context := start.context.fork })) :
    Yields (attempt production) start fun result final =>
      Parsed limit False lower slots start result final ∧
        (result = none → final.context = start.context) := by
  refine yields_attempt sound (ran.weaken fun result final parsed => ?_)
  refine ⟨parsed.reached, fun after moved tree => ⟨?_, ?_⟩⟩
  · intro found same cursor
    have under := parsed.made found same
    refine ⟨⟨moved, by simp, ?_⟩, by simp⟩
    rintro _ ⟨⟩
    refine ⟨moved, ?_, ?_, ?_⟩
    · unfold ParserState.position
      rw [cursor]
      exact under.ahead
    · unfold ParserState.passed
      rw [cursor]
      exact under.starts
    · unfold ParserState.Holds ParserState.passed
      rw [tree, cursor]
      exact under.held
  · intro _ dropped
    exact ⟨⟨moved, by simp, by simp⟩, fun _ => dropped⟩

/-- A node is made whose slots are filled with what is held. -/
theorem yields_make {origin start : ParserState} {kind : NodeKind NodeId} (span : Span)
    {slots : List (Category × NodeId)} {holds : NodeId → ParserState → Prop}
    (reached : origin.Reaches limit start) (held : origin.Holds start span.start slots)
    (fills : slots.Perm kind.slots) (inOrder : kind.isRoot = false → slots = kind.slots)
    (covers : start.passed ≤ span.stop) (inside : span.stop ≤ limit) (plain : kind.unsourced = kind)
    (met : ∀ node final, final.context = start.context →
      final.tree = start.tree.grown kind span → origin.Reaches limit final →
      final.tree.arena.kind? node = some kind →
      (span.stop ≤ start.passed → ∀ category : Category, category.admits kind = true →
        (category ≠ .body → span.start < span.stop) →
        origin.Holds final span.start [(category, node)]) →
      holds node final) :
    Yields (onTree (SourceTree.create kind span)) start holds := by
  have sound := reached.sound
  rw [yields_on_tree]
  have constructed := SourceTree.constructed_grown sound.constructed held fills inOrder
    (Position.le_refl _) covers inside plain
  have new : ∀ child ∈ kind.children, origin.tree.arena.size ≤ child.index ∧
      child.index < start.tree.arena.size := by
    intro child member
    obtain ⟨category, slot⟩ := NodeKind.child_has_slot member
    have slot := fills.mem_iff.mpr slot
    exact ⟨(held.each _ slot).1.new, held.bound slot⟩
  have kindOf : (start.tree.grown kind span).arena.kind? ⟨start.tree.arena.size⟩ = some kind := by
    rw [SourceTree.kind_grown, if_pos rfl]
  refine SourceTree.yields_create sound.constructed ?_
  refine met _ _ rfl rfl ?_ kindOf ?_
  · exact ⟨⟨sound.inside, sound.laid, sound.reported, constructed⟩, reached.cursor,
      reached.fileName, reached.diagnostics,
      SourceTree.extends_grown reached.tree fun child member => (new child member).1⟩
  · intro ends category admits filled
    refine ⟨?_, ?_, List.pairwise_singleton _ _⟩ <;> intro slot member <;>
      rw [List.mem_singleton] at member <;> subst member
    · exact ⟨SourceTree.waits_grown sound.constructed reached.tree.size
        (fun child member => (new child member).2) ends, kind, kindOf, admits⟩
    · intro solid other found
      rw [SourceTree.span_grown, if_pos rfl] at found
      cases found
      exact filled solid

/-- A node that ends where the production has got to. -/
theorem yields_finish {origin start : ParserState} (kind : NodeKind NodeId) {lower : Position}
    {holds : NodeId → ParserState → Prop} (under : Underway limit lower kind.slots origin start)
    (plain : kind.unsourced = kind)
    (met : ∀ node final, final.context = start.context →
      final.tree.arena.kind? node = some kind →
      (∀ category : Category, category.admits kind = true →
        Underway limit lower [(category, node)] origin final) →
      holds node final) :
    Yields (finish kind lower) start holds := by
  have stop : (Span.reaching lower start.passed).stop = start.passed := by
    change max lower start.passed = start.passed
    exact if_pos (Position.le_of_lt under.starts)
  unfold finish
  rw [yields_bind, yields_previous_end]
  refine yields_make _ under.reached under.held (.refl _) (fun _ => rfl)
    (by rw [stop]; exact Position.le_refl _) (by rw [stop]; exact passed_le_limit under.sound) plain ?_
  intro node final same _ reached kindOf held
  refine met node final same kindOf fun category admits => ?_
  have held := held (by rw [stop]; exact Position.le_refl _) category admits fun _ => by
    rw [stop]
    exact under.starts
  refine ⟨reached, ?_, ?_, held⟩
  · unfold ParserState.position
    rw [same]
    exact under.ahead
  · unfold ParserState.passed
    rw [same]
    exact under.starts

/-- A production that returns nothing. -/
theorem parsed_none {loud : Prop} {lower : Position} {slots : value → List (Category × NodeId)}
    {origin state : ParserState} (reached : origin.Reaches limit state)
    (reported : loud → origin.context.diagnostics.length < state.context.diagnostics.length) :
    Parsed limit loud lower slots origin none state :=
  ⟨reached, fun _ => reported, by simp⟩

/-- A production that returns what it holds. -/
theorem parsed_some {loud : Prop} {lower : Position} {slots : value → List (Category × NodeId)}
    {origin state : ParserState} (found : value)
    (under : Underway limit lower (slots found) origin state) :
    Parsed limit loud lower slots origin (some found) state :=
  ⟨under.reached, by simp, by rintro _ ⟨⟩; exact under⟩

/-- A production that ends because a part of it returned nothing. -/
theorem Parsed.failed {other : Type} {loud : Prop} {lower lowest : Position}
    {slots : value → List (Category × NodeId)} {slots' : other → List (Category × NodeId)}
    {origin state final : ParserState} (parsed : Parsed limit loud lower slots state none final)
    (reached : origin.Reaches limit state) :
    Parsed limit loud lowest slots' origin none final :=
  parsed_none (reached.trans parsed.reached) fun isLoud =>
    Nat.lt_of_le_of_lt reached.length (parsed.reported rfl isLoud)

/-- A production that went over to another one before it made anything. -/
theorem Parsed.since {loud : Prop} {lower lowest : Position}
    {slots : value → List (Category × NodeId)} {origin state final : ParserState}
    {result : Option value} (parsed : Parsed limit loud lower slots state result final)
    (reached : origin.Reaches limit state) (order : lowest ≤ lower) :
    Parsed limit loud lowest slots origin result final where
  reached := reached.trans parsed.reached
  reported failed isLoud := Nat.lt_of_le_of_lt reached.length (parsed.reported failed isLoud)
  made found same :=
    have under := parsed.made found same
    ⟨reached.trans under.reached, Nat.lt_of_le_of_lt reached.position under.ahead,
      Position.lt_of_le_of_lt order under.starts, under.held.weaken reached order⟩

/-- What a production made comes behind what was held when it began. -/
theorem Parsed.joined {loud : Prop} {lower : Position} {slots : List (Category × NodeId)}
    {more : value → List (Category × NodeId)} {origin state final : ParserState} {found : value}
    (parsed : Parsed limit loud state.here more state (some found) final)
    (under : Underway limit lower slots origin state) :
    Underway limit lower (slots ++ more found) origin final :=
  under.append parsed.reached (parsed.made found rfl).held (passed_le_here under.sound)

/-- A production that ends because something is missing, which it reports. -/
theorem parsed_missing {loud : Prop} {lower : Position}
    {slots : value → List (Category × NodeId)} {kind : DiagnosticKind}
    {origin state : ParserState} (reached : origin.Reaches limit state) :
    Yields (do
      reportHere kind
      return none) state (Parsed limit loud lower slots origin) := by
  rw [yields_bind]
  refine yields_report_here reached.sound fun final moved more => ?_
  exact parsed_none (reached.trans moved) fun _ => Nat.lt_of_le_of_lt reached.length more

/-- A production that ends with the making of its node. -/
theorem parsed_finish {category : Category} {loud : Prop} {origin state : ParserState}
    (kind : NodeKind NodeId) {lower : Position}
    (under : Underway limit lower kind.slots origin state) (admits : category.admits kind = true)
    (plain : kind.unsourced = kind) :
    Yields (do return some (← finish kind lower)) state
      (Parsed limit loud lower (fun node => [(category, node)]) origin) := by
  rw [yields_bind]
  refine yields_finish _ under plain fun node final _ _ made => ?_
  exact parsed_some _ (made category admits)

end Parser

end ModuleLang
