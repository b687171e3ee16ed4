import Mathlib.Data.List.Chain
import ModuleLang.Proofs.Parsing.Declaration
import ModuleLang.Proofs.Parsing.Quiet

/-!
Recovery. What begins no item is passed over in stretches, and what begins no statement of
a block token by token. The loops over items and over statements are described step by
step, with everything that they keep and report. It follows that each stretch and each
series of statements that fail one after another is reported once.
-/

namespace ModuleLang

namespace TokenSequence

/-- From `first` on and in front of `place`, nothing stands but blanks, comments, line ends
and semicolons. -/
def Separates (sequence : TokenSequence) (first place : Nat) : Prop :=
  ∀ index, first ≤ index → index < place →
    (sequence.get index).isTrivia = true ∨ (sequence.get index).kind = .endOfStatement

end TokenSequence

theorem TokenKind.trivia_of_inline {kind : TokenKind} (inline : kind.isInlineTrivia = true) :
    kind.isTrivia = true := by
  cases kind <;> first | rfl | cases inline

namespace ParserState

variable {limit : Position} {state next : ParserState}

/-- The cursor moved over separators, and nothing else has changed. -/
structure Separated (state next : ParserState) : Prop where
  follows : state.context.cursor.Follows next.context.cursor
  between : state.context.cursor.sequence.Separates state.position next.position
  same : next = { state with context := { state.context with cursor := next.context.cursor } }

theorem separated_skip_lines (inside : state.context.cursor.Inside) :
    state.Separated { state with context := state.context.skipLines } where
  follows := Cursor.follows_skip_while _ inside
  between index lower upper :=
    .inl ((Cursor.stops_skip_while TokenKind.isTrivia inside).passed index lower upper).1
  same := rfl

theorem separated_advance (inside : state.context.cursor.Inside)
    (kind : state.context.current.kind = .endOfStatement) :
    state.Separated { state with context := state.context.advance } where
  follows := Cursor.follows_advance_inline inside
  between := by
    intro index lower upper
    have going : state.context.cursor.atEnd = false :=
      beq_false_of_ne fun ended => nomatch kind.symm.trans ended
    obtain same | later := Nat.eq_or_lt_of_le lower
    · rw [← same]
      exact .inr kind
    · -- Blanks and comments behind the semicolon are moved past with it.
      have passed := (Cursor.stops_skip_while TokenKind.isInlineTrivia
        (Cursor.inside_advance inside)).passed index
        (by rw [Cursor.position_advance going]; exact later) upper
      rw [Cursor.sequence_advance] at passed
      exact .inl (TokenKind.trivia_of_inline passed.1)
  same := rfl

theorem Separated.reaches (sound : state.Sound limit) (moves : state.Separated next) :
    state.Reaches limit next := by
  rw [moves.same]
  exact Parser.reaches_moved sound moves.follows

end ParserState

/-- A stretch of tokens by places: of its first token, of its last one that counts, and of the
token behind it. -/
structure Stretch where
  first : Nat
  last : Nat
  next : Nat

namespace Stretch

/-- A stretch that begins no item and is as long as it can be. It begins with a token that
counts and does not separate, and reaches up to the next keyword of an item or the end of
the file. -/
structure Maximal (sequence : TokenSequence) (stretch : Stretch) : Prop where
  counts : (sequence.get stretch.first).isTrivia = false
  solid : (sequence.get stretch.first).kind ≠ .endOfStatement
  filled : stretch.first ≤ stretch.last
  ends : stretch.last < stretch.next
  inside : stretch.next < sequence.size
  passed : ∀ index, stretch.first ≤ index → index < stretch.next →
    Parser.startsItem (sequence.get index).kind = false
  stopped : Parser.startsItem (sequence.get stretch.next).kind = true
  final : (sequence.get stretch.last).isTrivia = false
  behind : ∀ index, stretch.last < index → index < stretch.next →
    (sequence.get index).isTrivia = true

/-- Between a token that begins nothing and the place where the next item begins there is one
stretch. -/
theorem exists_maximal {sequence : TokenSequence} {first place : Nat}
    (stops : sequence.StopsAt (fun kind => !Parser.startsItem kind) first place)
    (counts : (sequence.get first).isTrivia = false)
    (solid : (sequence.get first).kind ≠ .endOfStatement) (ahead : first < place) :
    ∃ last, Maximal sequence ⟨first, last, place⟩ ∧
      Cursor.previousEnd? sequence place = some (sequence.get last).span.stop := by
  have passed : ∀ index, first ≤ index → index < place →
      Parser.startsItem (sequence.get index).kind = false := by
    intro index lower upper
    simpa using (stops.passed index lower upper).1
  have stopped : Parser.startsItem (sequence.get place).kind = true := by
    obtain keyword | ended := stops.stopped
    · simpa using keyword
    · rw [ended]
      rfl
  obtain ⟨-, all⟩ | ⟨last, ends, final, behind, found⟩ := Cursor.previous_end_cases sequence place
  · rw [all first ahead] at counts
    cases counts
  · have filled : first ≤ last := by
      by_contra earlier
      rw [behind first (by omega) ahead] at counts
      cases counts
    exact ⟨last, ⟨counts, solid, filled, ends, stops.inside, passed, stopped, final, behind⟩, found⟩

/-- A report of unexpected tokens that spans a stretch from its first token to its last one
that counts. -/
structure Reported (sequence : TokenSequence) (fileName : String) (stretch : Stretch)
    (found : Diagnostic) : Prop where
  kind : found.kind = .unexpectedTopLevelToken
  start : found.span.start = (sequence.get stretch.first).span.start
  stop : found.span.stop = (sequence.get stretch.last).span.stop
  fileName : found.fileName = fileName

theorem Reported.unexpected {sequence : TokenSequence} {fileName : String} {stretch : Stretch}
    {found : Diagnostic} (reported : stretch.Reported sequence fileName found) :
    found.isUnexpected = true :=
  Diagnostic.is_unexpected_iff.mpr reported.kind

/-- The keyword of an item stands between two stretches. -/
structure Before (sequence : TokenSequence) (stretch later : Stretch) : Prop where
  order : stretch.next < later.first
  keyword : (sequence.get stretch.next).kind ∈
    [TokenKind.keyword .moduleWord, .keyword .useWord, .keyword .fnWord]

end Stretch

namespace Parser

/-- The production for the item that a token begins. -/
def itemProduction? : TokenKind → Option (Parser (Option NodeId))
  | .keyword .moduleWord => some (pathItem .moduleDef)
  | .keyword .useWord => some (pathItem .useDef)
  | .keyword .fnWord => some function
  | _ => none

theorem quiet_item_production {kind : TokenKind} {production : Parser (Option NodeId)}
    (begins : itemProduction? kind = some production) : Quiet (item production) := by
  unfold itemProduction? at begins
  split at begins
  · cases begins
    exact quiet_item (quiet_path_item _)
  · cases begins
    exact quiet_item (quiet_path_item _)
  · cases begins
    exact quiet_item quiet_function
  · cases begins

theorem not_starts_item {kind : TokenKind} (notEnd : kind ≠ .endOfFile)
    (notModule : kind ≠ .keyword .moduleWord) (notUse : kind ≠ .keyword .useWord)
    (notFunction : kind ≠ .keyword .fnWord) : startsItem kind = false := by
  simp [startsItem, notEnd, notModule, notUse, notFunction]

theorem keyword_of_starts {kind : TokenKind} (starts : startsItem kind = true)
    (going : kind ≠ .endOfFile) :
    kind ∈ [TokenKind.keyword .moduleWord, .keyword .useWord, .keyword .fnWord] := by
  by_contra other
  simp only [List.mem_cons, List.not_mem_nil, or_false, not_or] at other
  rw [not_starts_item going other.1 other.2.1 other.2.2] at starts
  cases starts

end Parser

namespace TopLevel

/-- A step of the loop over the items of a file, with the stretch that it passes over. An item
is read by the production that its keyword calls for; a stretch is reported and passed over. -/
inductive Step (limit : Position) : ParserState → Option Stretch → ParserState → Prop
  | separated {state next : ParserState} (moves : state.Separated next) :
      Step limit state none next
  | item {state next : ParserState} {production : Parser (Option NodeId)} {found : List NodeId}
      (begins : Parser.itemProduction? state.context.current.kind = some production)
      (ran : (Parser.item production).run state = .ok found next)
      (reached : state.Reaches limit next) : Step limit state none next
  | skipped {state next : ParserState} {stretch : Stretch} {found : Diagnostic}
      (begins : stretch.first = state.position)
      (maximal : stretch.Maximal state.context.cursor.sequence)
      (reported : stretch.Reported state.context.cursor.sequence state.context.fileName found)
      (ends : next = { state with context := { state.context with
        cursor := ⟨state.context.cursor.sequence, stretch.next⟩
        diagnostics := state.context.diagnostics ++ [found] } }) :
      Step limit state (some stretch) next

/-- Steps from a place where an item may begin up to the end of the file, with the stretches
that they pass over. -/
inductive Course (limit : Position) : ParserState → List Stretch → ParserState → Prop
  | ended {state : ParserState} (kind : state.context.current.kind = .endOfFile) :
      Course limit state [] state
  | step {state next final : ParserState} {stretch : Option Stretch} {rest : List Stretch}
      (step : Step limit state stretch next) (course : Course limit next rest final) :
      Course limit state (stretch.toList ++ rest) final

end TopLevel

namespace Parser

open ParserState

variable {limit : Position} {start : ParserState}

/-- What says nothing is moved over, up to a token that counts. -/
theorem yields_blank {holds : PUnit → ParserState → Prop} (sound : start.Sound limit)
    (met : ∀ next, start.Separated next → next.context.current.isTrivia = false → holds ⟨⟩ next) :
    Yields skipLines start holds := by
  unfold skipLines
  rw [yields_move]
  exact met _ (separated_skip_lines sound.inside) (Cursor.counts_skip_lines sound.inside)

/-- A semicolon is moved past. -/
theorem yields_separator {holds : PUnit → ParserState → Prop} (sound : start.Sound limit)
    (kind : start.context.current.kind = .endOfStatement)
    (met : ∀ next, start.Separated next → start.position < next.position → holds ⟨⟩ next) :
    Yields advance start holds := by
  unfold advance
  rw [yields_move]
  refine met _ (separated_advance sound.inside kind) ?_
  exact Cursor.advance_inline_strict sound.inside
    (beq_false_of_ne fun ended => nomatch kind.symm.trans ended)

/-- A stretch is passed over with one report. -/
theorem yields_stretch (sound : start.Sound limit)
    (counts : start.context.current.isTrivia = false)
    (solid : start.context.current.kind ≠ .endOfStatement)
    (unstarted : startsItem start.context.current.kind = false) :
    Yields skipRun start fun _ final => start.Reaches limit final ∧
      start.position < final.position ∧
      ∃ stretch, TopLevel.Step limit start (some stretch) final := by
  refine yields_skip_run sound unstarted fun final reached ahead tree same => ?_
  have cursor : final.context.cursor = (start.context.skipUntil startsItem).cursor := by
    rw [same]
    rfl
  have stops : start.context.cursor.sequence.StopsAt (fun kind => !startsItem kind) start.position
      final.position := by
    unfold ParserState.position
    rw [cursor]
    exact Cursor.stops_skip_while _ sound.inside
  obtain ⟨last, maximal, found⟩ := Stretch.exists_maximal stops counts solid ahead
  have passed : final.context.cursor.previousEnd =
      (start.context.cursor.sequence.get last).span.stop := by
    unfold Cursor.previousEnd
    rw [reached.cursor.sequence, show final.context.cursor.position = final.position from rfl, found]
    rfl
  have order : start.here ≤ (start.context.cursor.sequence.get last).span.stop :=
    Position.le_trans (Cursor.start_mono sound.laid maximal.filled
      (Nat.lt_trans maximal.ends maximal.inside)) (start.context.cursor.sequence.get last).span.ordered
  have reported : Stretch.Reported start.context.cursor.sequence start.context.fileName
      ⟨start.position, last, final.position⟩ ⟨.unexpectedTopLevelToken,
        .reaching start.here final.context.cursor.previousEnd, start.context.fileName⟩ := by
    refine ⟨rfl, rfl, ?_, rfl⟩
    rw [passed]
    exact if_pos order
  have skips : start.context.cursor.skipWhile (fun kind => !startsItem kind) =
      ⟨start.context.cursor.sequence, final.position⟩ :=
    Cursor.skip_while_of_stops sound.inside stops
  rw [← cursor] at same
  refine ⟨reached, ahead, _, .skipped rfl maximal reported ?_⟩
  refine congrArg₂ ParserState.mk tree (same.trans ?_)
  simp only [ParsingContext.report, ParsingContext.skipUntil, skips]

/-- The loop over the items of a file goes through the whole file. -/
theorem yields_items_course {budget : Nat} {items : Items} (sound : start.Sound limit)
    (enough : start.remaining ≤ budget) :
    Yields (itemsFrom budget items) start fun _ final =>
      ∃ stretches, TopLevel.Course limit start stretches final := by
  induction budget generalizing start items with
  | zero =>
      have positive := remaining_pos sound
      omega
  | succ budget ih =>
      -- A step that moves past a token is followed by the rest of the file.
      have again : ∀ {state next : ParserState} {stretch : Option Stretch} {items : Items},
          start.Separated state → TopLevel.Step limit state stretch next →
          state.Reaches limit next → state.position < next.position →
          Yields (itemsFrom budget items) next fun _ final =>
            ∃ stretches, TopLevel.Course limit start stretches final := by
        intro state next stretch items moves step reached ahead
        have enough := Nat.le_trans (remaining_mono (moves.reaches sound)) enough
        refine (ih reached.sound (remaining_of_reaches reached ahead enough)).weaken ?_
        rintro _ final ⟨stretches, course⟩
        exact ⟨_, .step (.separated moves) (.step step course)⟩
      unfold itemsFrom
      rw [yields_bind]
      refine yields_blank sound fun state moves counts => ?_
      have sound := (moves.reaches sound).sound
      -- An item is read, or passed over if it fails.
      have reads : ∀ {category : Category} {production : Parser (Option NodeId)}
          {more : List NodeId → Items}, state.context.current.kind ≠ .endOfFile →
          itemProduction? state.context.current.kind = some production →
          Parses limit category True state.here production state →
          Yields (do
            let found ← item production
            itemsFrom budget (more found)) state fun _ final =>
              ∃ stretches, TopLevel.Course limit start stretches final := by
        intro category production more going begins parses
        obtain ⟨found, next, ran, round⟩ := yields_iff.mp (yields_item going parses)
        rw [yields_bind]
        refine yields_iff.mpr ⟨found, next, ran, ?_⟩
        exact again moves (.item begins ran round.reached) round.reached round.ahead
      rw [yields_bind, yields_current]
      split
      · rename_i kind
        exact ⟨[], .step (.separated moves) (.ended kind)⟩
      · rename_i kind
        rw [yields_bind]
        refine yields_separator sound kind fun next separated ahead => ?_
        exact again moves (.separated separated) (separated.reaches sound) ahead
      · rename_i kind
        refine reads (by simp [kind]) (by rw [kind]; rfl) (parses_path_item .moduleDef .moduleDef
          sound (by simp [kind]) (by simp [Token.isTrivia, kind, TokenKind.isTrivia])
          (fun _ => rfl) fun _ => rfl)
      · rename_i kind
        refine reads (by simp [kind]) (by rw [kind]; rfl) (parses_path_item .useDef .useDef
          sound (by simp [kind]) (by simp [Token.isTrivia, kind, TokenKind.isTrivia])
          (fun _ => rfl) fun _ => rfl)
      · rename_i kind
        exact reads (by simp [kind]) (by rw [kind]; rfl) (parses_function sound kind)
      · rename_i notEnd notSeparator notModule notUse notFunction
        rw [yields_bind]
        refine (yields_stretch sound counts notSeparator
          (not_starts_item notEnd notModule notUse notFunction)).weaken ?_
        rintro _ next ⟨moved, ahead, stretch, step⟩
        exact again moves step moved ahead

/-- A file is gone through from its front to its end. -/
theorem yields_root_course (sound : start.Sound limit) :
    Yields root start fun _ final => ∃ stretches last,
      TopLevel.Course limit start stretches last ∧ final.context = last.context := by
  refine ((yields_root sound).ensured ?_).weaken fun _ _ => And.right
  unfold root
  rw [ensures_bind, ensures_remaining, ensures_bind]
  have whole : Yields (itemsFrom start.remaining ⟨[], [], []⟩) start _ :=
    yields_items_course sound (Nat.le_refl _)
  obtain ⟨items, last, ran, stretches, course⟩ := yields_iff.mp whole
  rw [ensures_of_run ran, ensures_bind, ensures_current, ensures_on_tree]
  constructor
  intro _ _ _
  exact ⟨stretches, last, course, rfl⟩

end Parser

namespace TopLevel

variable {limit : Position} {state next final : ParserState} {stretches : List Stretch}

/-- A step stays in its file and never goes back. -/
theorem Step.forward {stretch : Option Stretch} (step : Step limit state stretch next) :
    next.context.cursor.sequence = state.context.cursor.sequence ∧
      state.position ≤ next.position ∧ next.context.fileName = state.context.fileName := by
  cases step with
  | separated moves =>
      refine ⟨moves.follows.sequence, moves.follows.position, ?_⟩
      rw [moves.same]
  | item _ _ reached => exact ⟨reached.cursor.sequence, reached.position, reached.fileName⟩
  | skipped begins maximal _ ends =>
      subst ends
      refine ⟨rfl, ?_, rfl⟩
      rw [← begins]
      exact Nat.le_of_lt (Nat.lt_of_le_of_lt maximal.filled maximal.ends)

/-- A step reports unexpected tokens if and only if it passes over a stretch, and then once. -/
theorem Step.reported {stretch : Option Stretch} (step : Step limit state stretch next) :
    ∃ reports, next.unexpected = state.unexpected ++ reports ∧
      List.Forall₂ (Stretch.Reported state.context.cursor.sequence state.context.fileName)
        stretch.toList reports := by
  cases step with
  | separated moves =>
      refine ⟨[], ?_, .nil⟩
      rw [moves.same, List.append_nil]
      rfl
  | item begins ran _ =>
      refine ⟨[], ?_, .nil⟩
      rw [List.append_nil]
      exact (Parser.quiet_item_production begins state).met _ _ ran
  | @skipped _ stretch found _ _ reported ends =>
      refine ⟨[found], ?_, .cons reported .nil⟩
      subst ends
      unfold ParserState.unexpected
      rw [List.filter_append, List.filter_cons_of_pos reported.unexpected, List.filter_nil]

/-- Each stretch is reported once, in the order of the file, and nothing else is reported as
unexpected. -/
theorem Course.reported (course : Course limit state stretches final) :
    ∃ reports, final.unexpected = state.unexpected ++ reports ∧
      List.Forall₂ (Stretch.Reported state.context.cursor.sequence state.context.fileName)
        stretches reports := by
  induction course with
  | ended kind => exact ⟨[], (List.append_nil _).symm, .nil⟩
  | step step _ ih =>
      obtain ⟨sequence, -, fileName⟩ := step.forward
      obtain ⟨first, told, each⟩ := step.reported
      obtain ⟨others, more, rest⟩ := ih
      rw [sequence, fileName] at rest
      refine ⟨first ++ others, ?_, List.rel_append each rest⟩
      rw [more, told, List.append_assoc]

/-- Every stretch lies behind the place where the course begins. -/
theorem Course.maximal (course : Course limit state stretches final) :
    ∀ stretch ∈ stretches, state.position ≤ stretch.first ∧
      stretch.Maximal state.context.cursor.sequence := by
  induction course with
  | ended kind =>
      intro stretch member
      cases member
  | step step _ ih =>
      intro stretch member
      obtain ⟨sequence, position, -⟩ := step.forward
      obtain own | later := List.mem_append.mp member
      · cases step with
        | separated | item => cases own
        | skipped begins maximal _ _ =>
            cases List.mem_singleton.mp own
            exact ⟨Nat.le_of_eq begins.symm, maximal⟩
      · obtain ⟨lower, maximal⟩ := ih stretch later
        rw [sequence] at maximal
        exact ⟨Nat.le_trans position lower, maximal⟩

/-- Behind the end of the file there is nothing. -/
theorem Course.nil_of_end (course : Course limit state stretches final)
    (ended : state.context.current.kind = .endOfFile) : stretches = [] := by
  induction course with
  | ended _ => rfl
  | @step state next final stretch rest step _ ih =>
      cases step with
      | separated moves =>
          -- The end of the file does not separate, so the cursor stayed.
          have stays : next.position = state.position := by
            by_contra moved
            have position := moves.follows.position
            have between := moves.between state.position (Nat.le_refl _)
              (Nat.lt_of_le_of_ne position (Ne.symm moved))
            have ended : (state.context.cursor.sequence.get state.position).kind = .endOfFile :=
              ended
            simp [Token.isTrivia, ended, TokenKind.isTrivia] at between
          apply ih
          change (next.context.cursor.sequence.get next.position).kind = .endOfFile
          rw [moves.follows.sequence, stays]
          exact ended
      | item begins =>
          rw [ended] at begins
          cases begins
      | skipped begins maximal =>
          have started := maximal.passed _ (Nat.le_refl _)
            (Nat.lt_of_le_of_lt maximal.filled maximal.ends)
          have ended : (state.context.cursor.sequence.get state.position).kind = .endOfFile := ended
          rw [begins, ended] at started
          cases started

/-- The keyword of an item stands between any two stretches. -/
theorem Course.apart (course : Course limit state stretches final) :
    stretches.Pairwise (Stretch.Before state.context.cursor.sequence) := by
  induction course with
  | ended kind => exact .nil
  | @step state next final stretch rest step course ih =>
      have sequence := step.forward.1
      rw [sequence] at ih
      cases step with
      | separated | item => exact ih
      | @skipped _ stretch found begins maximal _ ends =>
          refine .cons ?_ ih
          intro later member
          obtain ⟨lower, also⟩ := course.maximal later member
          rw [sequence] at also
          have place : next.position = stretch.next := by
            rw [ends]
            rfl
          have started : (state.context.cursor.sequence.get stretch.next).kind ≠ .endOfFile := by
            intro ended
            have none := course.nil_of_end (by
              change (next.context.cursor.sequence.get next.position).kind = .endOfFile
              rw [sequence, place]
              exact ended)
            rw [none] at member
            cases member
          have differs : later.first ≠ stretch.next := by
            intro same
            have begins := also.passed _ (Nat.le_refl _) (Nat.lt_of_le_of_lt also.filled also.ends)
            rw [same, maximal.stopped] at begins
            cases begins
          refine ⟨by omega, Parser.keyword_of_starts maximal.stopped started⟩

end TopLevel

namespace Block

/-- What the statements of a block come to: one that parsed, with the reports of its fork, or
several that failed one after another, at a first token and then at others. -/
inductive Piece
  | parsed (node : NodeId) (reports : List Diagnostic)
  | failing (first : Token) (others : List Token)

namespace Piece

def isFailing : Piece → Bool
  | parsed .. => false
  | failing .. => true

def node? : Piece → Option NodeId
  | parsed node _ => some node
  | failing .. => none

/-- What the block reports about a piece. However many statements failed one after another, the
first of them is reported as invalid, with the code PRS1011. -/
def reports (fileName : String) : Piece → List Diagnostic
  | parsed _ reports => reports
  | failing first _ => [⟨.invalidStatement, first.span, fileName⟩]

/-- Between statements that failed another one has parsed. -/
def Apart (pieces : List Piece) : Prop :=
  pieces.IsChain fun piece next => piece.isFailing = true → next.isFailing = false

end Piece

/-- Tokens at which a statement is tried. -/
structure Tried (kind : TokenKind) : Prop where
  counts : kind.isTrivia = false
  solid : kind ≠ .endOfStatement
  inside : kind ≠ .punctuation .closeBrace
  going : kind ≠ .endOfFile

variable (statement : Parser (Option NodeId))

/-- Statements that fail behind one that has failed, each with the token at which it was tried.
Only nodes are left of their forks; the token is passed over, and nothing is reported. -/
inductive Failing : ParserState → List Token → ParserState → Prop
  | done {state : ParserState} : Failing state [] state
  | separated {state next final : ParserState} {tokens : List Token}
      (moves : state.Separated next) (rest : Failing next tokens final) :
      Failing state tokens final
  | failed {state dropped final : ParserState} {tokens : List Token}
      (tried : Tried state.context.current.kind)
      (ran : statement.run { state with context := state.context.fork } = .ok none dropped)
      (rest : Failing { dropped with context := state.context.advance } tokens final) :
      Failing state (state.context.current :: tokens) final

/-- The rest of a block, up to the closing brace or the report that it is missing. A statement
that parses leaves the reports of its fork. One that fails is reported where it was tried,
unless the one before it has failed. -/
inductive Course : ParserState → List Piece → ParserState → Prop
  | closed {state : ParserState}
      (kind : state.context.current.kind = .punctuation .closeBrace) :
      Course state [] { state with context := state.context.advance }
  | missing {state : ParserState} (kind : state.context.current.kind = .endOfFile) :
      Course state [] { state with context := state.context.reportHere (.expectedToken "\x7d") }
  | separated {state next final : ParserState} {pieces : List Piece}
      (moves : state.Separated next) (rest : Course next pieces final) :
      Course state pieces final
  | parsed {state forked final : ParserState} {node : NodeId} {pieces : List Piece}
      (tried : Tried state.context.current.kind)
      (ran : statement.run { state with context := state.context.fork } = .ok (some node) forked)
      (rest : Course { forked with context := state.context.merge forked.context } pieces final) :
      Course state (.parsed node forked.context.diagnostics :: pieces) final
  | failing {state dropped next final : ParserState} {others : List Token} {pieces : List Piece}
      (tried : Tried state.context.current.kind)
      (ran : statement.run { state with context := state.context.fork } = .ok none dropped)
      (series : Failing statement { dropped with
        context := (state.context.reportHere .invalidStatement).advance } others next)
      (rest : Course next pieces final) :
      Course state (.failing state.context.current others :: pieces) final

variable {statement} {state next final : ParserState} {pieces : List Piece}

/-- A series of statements that fail reports nothing. -/
theorem Failing.silent {tokens : List Token} (series : Failing statement state tokens final) :
    final.context.diagnostics = state.context.diagnostics ∧
      final.context.fileName = state.context.fileName := by
  induction series with
  | done => exact ⟨rfl, rfl⟩
  | separated moves _ ih =>
      rw [moves.same] at ih
      exact ih
  | failed _ _ _ ih => exact ih

/-- A block reports what its pieces do, and perhaps that the closing brace is missing. -/
theorem Course.told (course : Course statement state pieces final) :
    ∃ closing, final.context.diagnostics = state.context.diagnostics ++
        pieces.flatMap (Piece.reports state.context.fileName) ++ closing ∧
      ∀ found ∈ closing, found.kind = .expectedToken "\x7d" := by
  induction course with
  | closed _ =>
      refine ⟨[], ?_, by simp⟩
      simp [ParsingContext.advance]
  | @missing state _ =>
      refine ⟨[⟨.expectedToken "\x7d", state.context.current.span, state.context.fileName⟩], ?_,
        by simp⟩
      simp [ParsingContext.reportHere, ParsingContext.report]
  | separated moves _ ih =>
      rw [moves.same] at ih
      exact ih
  | parsed _ _ _ ih =>
      obtain ⟨closing, told, missing⟩ := ih
      refine ⟨closing, ?_, missing⟩
      simpa [ParsingContext.merge, Piece.reports] using told
  | failing _ _ series _ ih =>
      obtain ⟨closing, told, missing⟩ := ih
      obtain ⟨silent, fileName⟩ := series.silent
      refine ⟨closing, ?_, missing⟩
      rw [silent, fileName] at told
      simpa [ParsingContext.reportHere, ParsingContext.report, ParsingContext.advance,
        Piece.reports] using told

/-- The rest of a block behind a statement that has failed or has not. What fails next belongs
to the series of the one that has failed. -/
def Resumes (statement : Parser (Option NodeId)) :
    (failing : Bool) → ParserState → List Piece → ParserState → Prop
  | false, state, pieces, final => Course statement state pieces final ∧ Piece.Apart pieces
  | true, state, pieces, final => ∃ others next, Failing statement state others next ∧
      Course statement next pieces final ∧ Piece.Apart pieces ∧
      ∀ piece ∈ pieces.head?, piece.isFailing = false

variable {failing : Bool}

theorem Resumes.separated (moves : state.Separated next)
    (rest : Resumes statement failing next pieces final) :
    Resumes statement failing state pieces final := by
  cases failing with
  | false => exact ⟨.separated moves rest.1, rest.2⟩
  | true =>
      obtain ⟨others, middle, series, rest⟩ := rest
      exact ⟨others, middle, .separated moves series, rest⟩

/-- A block that goes on without a failure, where the first piece has not failed. -/
theorem Resumes.of_course (course : Course statement state pieces final)
    (apart : Piece.Apart pieces) (first : ∀ piece ∈ pieces.head?, piece.isFailing = false) :
    Resumes statement failing state pieces final := by
  cases failing with
  | false => exact ⟨course, apart⟩
  | true => exact ⟨[], state, .done, course, apart, first⟩

theorem Resumes.parsed {forked : ParserState} {node : NodeId}
    (tried : Tried state.context.current.kind)
    (ran : statement.run { state with context := state.context.fork } = .ok (some node) forked)
    (rest : Resumes statement false { forked with context := state.context.merge forked.context }
      pieces final) :
    Resumes statement failing state (.parsed node forked.context.diagnostics :: pieces) final := by
  refine .of_course (.parsed tried ran rest.1) ?_ ?_
  · exact List.isChain_cons.mpr ⟨fun _ _ => nofun, rest.2⟩
  · rintro _ ⟨⟩
    rfl

/-- A statement that fails behind another one. -/
theorem Resumes.failed {dropped : ParserState} (tried : Tried state.context.current.kind)
    (ran : statement.run { state with context := state.context.fork } = .ok none dropped)
    (rest : Resumes statement true { dropped with context := state.context.advance } pieces
      final) : Resumes statement true state pieces final := by
  obtain ⟨others, next, series, rest⟩ := rest
  exact ⟨_, next, .failed tried ran series, rest⟩

/-- The first of several statements that fail. -/
theorem Resumes.first_failed {dropped : ParserState} (tried : Tried state.context.current.kind)
    (ran : statement.run { state with context := state.context.fork } = .ok none dropped)
    (rest : Resumes statement true { dropped with
      context := (state.context.reportHere .invalidStatement).advance } pieces final) :
    ∃ others, Resumes statement false state (.failing state.context.current others :: pieces)
      final := by
  obtain ⟨others, next, series, course, apart, first⟩ := rest
  refine ⟨others, .failing tried ran series course, List.isChain_cons.mpr ⟨?_, apart⟩⟩
  intro piece head _
  exact first piece head

end Block

namespace Parser

open ParserState

variable {value : Type} {limit : Position} {start : ParserState}

/-- What is left of a fork: all of it where the production returned something, and otherwise
only its nodes. -/
theorem yields_fork {loud : Prop} {lower : Position} {slots : value → List (Category × NodeId)}
    {production : Parser (Option value)} (sound : start.Sound limit)
    (parses : Yields production { start with context := start.context.fork }
      (Parsed limit loud lower slots { start with context := start.context.fork })) :
    Yields (attempt production) start fun result final =>
      Parsed limit False lower slots start result final ∧ ∃ forked,
        production.run { start with context := start.context.fork } = .ok result forked ∧
        final = { forked with context :=
          if result.isSome then start.context.merge forked.context else start.context } := by
  obtain ⟨result, forked, ran, -⟩ := yields_iff.mp parses
  refine ((parsed_attempt sound parses).weaken fun _ _ => And.left).and ?_
  unfold attempt
  rw [yields_bind, yields_context, yields_bind, yields_set_context, yields_bind]
  refine yields_iff.mpr ⟨result, forked, ran, ?_⟩
  cases result with
  | none => exact ⟨forked, ran, rfl⟩
  | some found => exact ⟨forked, ran, rfl⟩

/-- The current token is passed over in a state that was reached on the spot. -/
theorem reaches_passed {last : ParserState} (reached : start.Reaches limit last)
    (stays : last.context.cursor = start.context.cursor)
    (going : start.context.current.kind ≠ .endOfFile) :
    start.Reaches limit { last with context := last.context.advance } ∧
      start.position < ParserState.position { last with context := last.context.advance } := by
  have inside := reached.sound.inside
  refine ⟨reached.trans (reaches_moved reached.sound (Cursor.follows_advance_inline inside)), ?_⟩
  have ahead := Cursor.advance_inline_strict inside
    (beq_false_of_ne (by rw [stays]; exact going))
  change start.context.cursor.position < _
  rw [← stays]
  exact ahead

section Blocks

variable {bound : Nat} {statement : Parser (Option NodeId)}
  (nested : ParsesStatements limit bound statement)

include nested

theorem yields_resumes {budget : Nat} {failing : Bool} (found : List NodeId)
    (sound : start.Sound limit) (enough : start.remaining ≤ budget)
    (within : start.remaining ≤ bound) :
    Yields (blockFrom statement budget failing found) start fun all final =>
      ∃ pieces, Block.Resumes statement failing start pieces final ∧
        all = found ++ pieces.filterMap Block.Piece.node? := by
  induction budget generalizing start failing found with
  | zero =>
      have positive := remaining_pos sound
      omega
  | succ budget ih =>
      unfold blockFrom
      rw [yields_bind]
      refine yields_blank sound fun state moves counts => ?_
      have reached := moves.reaches sound
      have sound := reached.sound
      have enough := Nat.le_trans (remaining_mono reached) enough
      have within := Nat.le_trans (remaining_mono reached) within
      suffices reads : Yields _ state fun all final => ∃ pieces,
          Block.Resumes statement failing state pieces final ∧
            all = found ++ pieces.filterMap Block.Piece.node? by
        refine reads.weaken ?_
        rintro all final ⟨pieces, rest, same⟩
        exact ⟨pieces, rest.separated moves, same⟩
      -- Every round moves past a token.
      have again : ∀ {next : ParserState} {failing : Bool} (found : List NodeId),
          state.Reaches limit next → state.position < next.position →
          Yields (blockFrom statement budget failing found) next fun all final =>
            ∃ pieces, Block.Resumes statement failing next pieces final ∧
              all = found ++ pieces.filterMap Block.Piece.node? :=
        fun found moved ahead => ih found moved.sound (remaining_of_reaches moved ahead enough)
          (Nat.le_trans (remaining_mono moved) within)
      unfold accept
      rw [yields_bind, yields_bind, yields_context]
      split
      · rename_i brace
        refine ⟨[], .of_course (.closed (eq_of_beq brace)) .nil (by simp), by simp⟩
      · rename_i brace
        rw [yields_pure, if_neg Bool.false_ne_true, yields_bind, yields_current]
        split
        · rename_i kind
          exact ⟨[], .of_course (.missing kind) .nil (by simp), by simp⟩
        · rename_i kind
          rw [yields_bind]
          refine yields_separator sound kind fun next separated ahead => ?_
          refine (again found (separated.reaches sound) ahead).weaken ?_
          rintro all final ⟨pieces, rest, same⟩
          exact ⟨pieces, rest.separated separated, same⟩
        · rename_i notEnd notSeparator
          have tried : Block.Tried state.context.current.kind :=
            ⟨counts, notSeparator, fun kind => brace (by
              unfold ParsingContext.atPunctuation
              rw [kind]
              rfl), notEnd⟩
          rw [yields_bind]
          refine (yields_fork sound (nested _ (sound_fork sound) within)).weaken ?_
          rintro result read ⟨parsed, forked, ran, same⟩
          subst same
          cases result with
          | some node =>
              refine (again _ parsed.reached (parsed.made node rfl).ahead).weaken ?_
              rintro all final ⟨pieces, rest, same⟩
              refine ⟨_, .parsed tried ran rest, ?_⟩
              simp [same, Block.Piece.node?]
          | none =>
              cases failing with
              | true =>
                  obtain ⟨passed, ahead⟩ := reaches_passed parsed.reached rfl notEnd
                  refine Yields.weaken (again found passed ahead) ?_
                  rintro all final ⟨pieces, rest, same⟩
                  exact ⟨pieces, .failed tried ran rest, same⟩
              | false =>
                  have reported := reaches_reported parsed.reached.sound .invalidStatement
                    (sound.laid.inside state.position)
                  obtain ⟨passed, ahead⟩ :=
                    reaches_passed (parsed.reached.trans reported) rfl notEnd
                  refine Yields.weaken (again found passed ahead) ?_
                  rintro all final ⟨pieces, rest, same⟩
                  obtain ⟨others, rest⟩ := Block.Resumes.first_failed tried ran rest
                  exact ⟨_, rest, same⟩

end Blocks

end Parser

namespace Block

/-- How a block was read with a production for statements: what its statements came to, and
whether the closing brace was reported as missing. -/
structure Read (statement : Parser (Option NodeId)) (start : ParserState) (pieces : List Piece)
    (closing : List Diagnostic) (result : Option NodeId) (final : ParserState) : Prop where
  course : ∃ last, Course statement { start with context := start.context.advance } pieces last ∧
    final.context = last.context
  apart : Piece.Apart pieces
  body : ∃ node, result = some node ∧
    final.tree.arena.kind? node = some (.body (pieces.filterMap Piece.node?))
  told : final.context.diagnostics = start.context.diagnostics ++
    pieces.flatMap (Piece.reports start.context.fileName) ++ closing
  closing : ∀ found ∈ closing, found.kind = .expectedToken "\x7d"

end Block

namespace Parser

open ParserState

variable {limit : Position} {bound : Nat} {statement : Parser (Option NodeId)} {start : ParserState}

/-- A block is read to its end, and each series of statements that fail is reported once. -/
theorem yields_block_recovers (nested : ParsesStatements limit bound statement)
    (sound : start.Sound limit)
    (opening : start.context.current.kind = .punctuation .openBrace)
    (within : start.remaining ≤ bound + 1) :
    Yields (block statement) start fun result final =>
      ∃ pieces closing, Block.Read statement start pieces closing result final := by
  have going : start.context.current.kind ≠ .endOfFile := by simp [opening]
  obtain ⟨moved, ahead⟩ := reaches_passed (.refl sound) rfl going
  have under : Underway limit start.here [] start
      { start with context := start.context.advance } :=
    .begin moved ahead (here_lt_passed moved ahead going
      (by simp [Token.isTrivia, opening, TokenKind.isTrivia]))
  unfold block advance
  rw [yields_bind, yields_current, yields_bind, yields_move, yields_bind, yields_remaining,
    yields_bind]
  refine ((yields_block_from nested [] under (Nat.le_refl _) (under.remaining within)).and
    (yields_resumes nested [] moved.sound (Nat.le_refl _) (under.remaining within))).weaken ?_
  rintro statements last ⟨under, pieces, ⟨course, apart⟩, same⟩
  rw [yields_bind]
  refine yields_finish (.body statements) under rfl fun node final context kind _ => ?_
  obtain ⟨closing, told, missing⟩ := course.told
  rw [List.nil_append] at same
  rw [same] at kind
  refine ⟨pieces, closing, ⟨last, course, context⟩, apart, ⟨node, rfl, kind⟩, ?_, missing⟩
  rw [context]
  exact told

/-- The productions for statements that a block is read with where it begins: `statement` for
the body of a function, and for blocks further inside the one that is left of its budget. -/
inductive Serves (start : ParserState) : Parser (Option NodeId) → Prop
  | outer : Serves start Parser.statement
  | inner {budget : Nat} (enough : start.remaining ≤ budget + 1) :
      Serves start (statementWithin budget)

theorem Serves.parses (serves : Serves start statement) :
    ∃ bound, start.remaining ≤ bound + 1 ∧ ParsesStatements limit bound statement := by
  cases serves with
  | outer => exact ⟨start.remaining, Nat.le_succ _, parses_statement⟩
  | inner enough => exact ⟨_, enough, parses_statement_within _⟩

end Parser

variable {text fileName : String}

theorem Lexeme.Fits.expected {text : List Char} {lexeme : Lexeme} {fault : Fault}
    (fits : Fits text lexeme) (member : fault ∈ lexeme.faults) :
    fault.kind ≠ .unexpectedTopLevelToken := by
  intro same
  obtain ⟨_, _, _, faults⟩ | ⟨_, _, character, faults⟩ := fits.shown
  · have fault := faults fault member
    rw [same] at fault
    cases fault
  · rw [faults, List.mem_singleton] at member
    rw [member] at same
    cases same

/-- No report about a lexeme is one about unexpected tokens. -/
theorem Tokenized.locate_expected {text : List Char} {lexemes : List Lexeme} (reading : Reading)
    (covers : Lexeme.Covers text lexemes) :
    (locate fileName reading lexemes).diagnostics.filter Diagnostic.isUnexpected = [] := by
  induction covers generalizing reading with
  | nil _ => rfl
  | cons fits _ ih =>
      unfold locate
      rw [List.filter_append, ih, List.append_nil, List.filter_eq_nil_iff]
      intro found member
      obtain ⟨fault, listed, rfl⟩ := List.mem_map.mp member
      rw [Diagnostic.is_unexpected_iff]
      exact fits.expected listed

namespace ParsedModule

/-- Every stretch of tokens that begins no item is reported once, from its first token to its
last one that counts, and an item begins between two of them. In every block that a parse comes
to, statements that fail one after another are reported once, at the first of them. -/
theorem of_text_recovers (text fileName : String) :
    (∃ parsed stretches last, ofText text fileName = .ok parsed ∧
      TopLevel.Course (Position.ending text.toList)
        (.initial (Tokenized.ofText text fileName).sequence fileName) stretches last ∧
      parsed.diagnostics =
        (Tokenized.ofText text fileName).diagnostics ++ last.context.diagnostics ∧
      List.Forall₂ (Stretch.Reported (Tokenized.ofText text fileName).sequence fileName) stretches
        (parsed.diagnostics.filter Diagnostic.isUnexpected) ∧
      (∀ stretch ∈ stretches, stretch.Maximal (Tokenized.ofText text fileName).sequence) ∧
      stretches.Pairwise (Stretch.Before (Tokenized.ofText text fileName).sequence)) ∧
    ∀ state statement,
      ParserState.Reaches (Position.ending text.toList)
        (.initial (Tokenized.ofText text fileName).sequence fileName) state →
      state.context.current.kind = .punctuation .openBrace → Parser.Serves state statement →
      Yields (Parser.block statement) state fun result final =>
        ∃ pieces closing, Block.Read statement state pieces closing result final := by
  have sound := ParserState.sound_initial text fileName
  constructor
  · obtain ⟨root, final, ran, stretches, last, course, context⟩ :=
      yields_iff.mp (Parser.yields_root_course sound)
    obtain ⟨reports, told, reported⟩ := course.reported
    have lexical : (Tokenized.ofText text fileName).diagnostics.filter Diagnostic.isUnexpected = [] :=
      Tokenized.locate_expected _ (Lexeme.covers_of_text text.toList)
    refine ⟨⟨final.tree, root, (Tokenized.ofText text fileName).diagnostics ++
      final.context.diagnostics, fileName⟩, stretches, last, ?_, course, ?_, ?_,
      fun stretch member => (course.maximal stretch member).2, course.apart⟩
    · unfold ofText
      simp only [ran]
    · rw [context]
    · rw [List.filter_append, lexical, List.nil_append, context]
      have all : last.context.diagnostics.filter Diagnostic.isUnexpected = reports := told
      rw [all]
      exact reported
  · intro state statement reached opening serves
    obtain ⟨bound, within, nested⟩ := serves.parses
    exact Parser.yields_block_recovers nested reached.sound opening within

/-- A text that is a block of which two statements fail. -/
theorem of_text_recovers_failing :
    ((Tokenized.ofText "\x7b 1; ) \x7d" "m.plp").sequence.get 0).kind = .punctuation .openBrace ∧
    ∃ pieces closing result final, Block.Read Parser.statement
      (.initial (Tokenized.ofText "\x7b 1; ) \x7d" "m.plp").sequence "m.plp") pieces closing result
      final := by
  have first : ((Tokenized.ofText "\x7b 1; ) \x7d" "m.plp").sequence.get 0).kind =
      .punctuation .openBrace := by decide +kernel
  refine ⟨first, ?_⟩
  have blocks := (of_text_recovers "\x7b 1; ) \x7d" "m.plp").2
  have reached := ParserState.Reaches.refl (ParserState.sound_initial "\x7b 1; ) \x7d" "m.plp")
  have opening : (ParserState.initial (Tokenized.ofText "\x7b 1; ) \x7d" "m.plp").sequence
    "m.plp").context.current.kind = _ := first
  -- No more is to be known of the state; that it is given keeps it from being computed.
  generalize ParserState.initial (Tokenized.ofText "\x7b 1; ) \x7d" "m.plp").sequence "m.plp" =
    start at blocks reached opening ⊢
  obtain ⟨result, final, -, pieces, closing, read⟩ :=
    yields_iff.mp (blocks start Parser.statement reached opening .outer)
  exact ⟨pieces, closing, result, final, read⟩

example : (ofText "x; y\nfn f() \x7b 1; ) a := 1; ] \x7d\nz" "m.plp").toOption.map
    (fun parsed => parsed.diagnostics.map fun found => found.kind.code) =
      some ["PRS1009", "PRS1011", "PRS1011", "PRS1009"] := by
  decide +kernel

end ParsedModule

end ModuleLang
