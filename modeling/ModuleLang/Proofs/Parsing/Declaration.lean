import ModuleLang.Parsing.Module
import ModuleLang.Proofs.Parsing.Statement
import ModuleLang.Proofs.Token.Tiling

/-!
Items of a file and its root. Every round of the loop over items moves past a
token, also where an item fails, and the items that were made wait for the root
in the order in which they were read. So every text gives a module, and its tree is
constructed from the leaves up within the text.
-/

namespace ModuleLang.Parser

open ParserState

variable {limit : Position}

theorem yields_path_from {budget : Nat} {segments : List String} {start : ParserState}
    (sound : start.Sound limit) (enough : start.remaining ≤ budget) :
    Yields (pathFrom budget segments) start fun result final =>
      start.Reaches limit final ∧ (result = none →
        start.context.diagnostics.length < final.context.diagnostics.length) := by
  induction budget generalizing start segments with
  | zero =>
      have positive := remaining_pos sound
      omega
  | succ budget ih =>
      unfold pathFrom
      rw [yields_bind]
      refine yields_word sound ?_ ?_
      · intro segment named moved ahead _
        rw [yields_bind]
        refine yields_accept moved.sound ?_ ⟨moved, by simp⟩
        intro next dotted further _
        have whole := moved.trans dotted
        have enough := remaining_of_reaches whole (Nat.lt_trans ahead further) enough
        refine (ih whole.sound enough).weaken ?_
        rintro result final ⟨last, reported⟩
        exact ⟨whole.trans last, fun failed => Nat.lt_of_le_of_lt whole.length (reported failed)⟩
      · rw [yields_bind]
        exact yields_report_here sound fun final moved more => ⟨moved, fun _ => more⟩

theorem parses_path_item (category : Category) (kind : ModulePath → NodeKind NodeId)
    {start : ParserState} (sound : start.Sound limit)
    (going : start.context.current.kind ≠ .endOfFile)
    (solid : start.context.current.isTrivia = false) (leaf : ∀ path, (kind path).slots = [])
    (admits : ∀ path, category.admits (kind path) = true) :
    Parses limit category True start.here (pathItem kind) start := by
  unfold Parses pathItem
  rw [yields_bind, yields_current, yields_bind]
  refine yields_begin sound going solid fun next begun => ?_
  rw [yields_bind, yields_remaining, yields_bind]
  refine (yields_path_from begun.sound (Nat.le_refl _)).weaken ?_
  rintro result read ⟨moved, reported⟩
  have under := begun.later moved
  cases result with
  | none =>
      exact parsed_none under.reached fun _ =>
        Nat.lt_of_le_of_lt begun.reached.length (reported rfl)
  | some path =>
      rw [← leaf path] at under
      rw [yields_bind]
      refine yields_finish _ under (NodeKind.unsourced_of_leaf (leaf path)) fun node made _ _ under => ?_
      have under := under category (admits path)
      rw [yields_bind]
      exact yields_end_statement under.sound fun final last => parsed_some _ (under.later last)

theorem parses_parameter {start : ParserState} (sound : start.Sound limit) :
    Parses limit .parameter False start.here parameter start := by
  unfold Parses parameter
  rw [yields_bind, yields_current, yields_bind]
  refine (parses_type sound).weaken fun result typed parsed => ?_
  cases result with
  | none => exact parsed_none parsed.reached False.elim
  | some type =>
      have under := parsed.made type rfl
      rw [yields_bind]
      refine yields_word under.sound ?_ (parsed_none under.reached False.elim)
      intro name named moved _ _
      exact parsed_finish (.parameter type name) (under.later moved) rfl rfl

/-- Slots of a list of parameters. -/
def parameterSlots (nodes : List NodeId) : List (Category × NodeId) :=
  nodes.map (Prod.mk .parameter)

theorem parses_parameters_from {budget : Nat} {found : List NodeId} {lower : Position}
    {slots : List (Category × NodeId)} {origin start : ParserState}
    (under : Underway limit lower (slots ++ parameterSlots found) origin start)
    (enough : start.remaining ≤ budget) :
    Yields (parametersFrom budget found) start
      (Parsed limit True lower (fun all => slots ++ parameterSlots all) origin) := by
  induction budget generalizing start found with
  | zero =>
      have positive := remaining_pos under.sound
      omega
  | succ budget ih =>
      unfold parametersFrom
      rw [yields_bind]
      refine (parsed_attempt under.sound (parses_parameter (sound_fork under.sound))).weaken ?_
      rintro result read ⟨parsed, -⟩
      cases result with
      | none => exact parsed_missing (under.reached.trans parsed.reached)
      | some node =>
          have joined : Underway limit lower (slots ++ parameterSlots (found ++ [node]))
              origin read := by
            simpa [parameterSlots] using parsed.joined under
          have further := (parsed.made node rfl).ahead
          rw [yields_bind]
          refine yields_skip_lines joined.sound fun skipped moved => ?_
          rw [yields_bind]
          refine yields_accept moved.sound ?_ ?_
          · intro behind comma _ _
            rw [if_pos rfl, yields_bind]
            refine yields_skip_lines comma.sound fun next last => ?_
            have tail := moved.trans (comma.trans last)
            exact ih (joined.later tail) (remaining_of_reaches (parsed.reached.trans tail)
              (Nat.lt_of_lt_of_le further tail.position) enough)
          · rw [if_neg Bool.false_ne_true, yields_bind]
            refine yields_expect moved.sound fun final closed => ?_
            exact parsed_some _ (joined.later (moved.trans closed))

theorem parses_parameters {lower : Position} {slots : List (Category × NodeId)}
    {origin start : ParserState} (under : Underway limit lower slots origin start) :
    Yields parameters start
      (Parsed limit True lower (fun all => slots ++ parameterSlots all) origin) := by
  unfold parameters
  rw [yields_bind]
  refine yields_accept under.sound ?_ (parsed_missing under.reached)
  intro opened moved _ _
  rw [Bool.not_true, if_neg Bool.false_ne_true, yields_bind]
  refine yields_skip_lines moved.sound fun skipped inside => ?_
  have empty : Underway limit lower (slots ++ parameterSlots []) origin skipped := by
    simpa [parameterSlots] using under.later (moved.trans inside)
  rw [yields_bind]
  refine yields_accept inside.sound ?_ ?_
  · intro final closed _ _
    exact parsed_some _ (empty.later closed)
  · rw [if_neg Bool.false_ne_true, yields_bind, yields_remaining]
    exact parses_parameters_from empty (Nat.le_refl _)

theorem parses_typed_header {start : ParserState} (sound : start.Sound limit) :
    Yields typedHeader start (Parsed limit False start.here
      (fun found : NodeId × String => [(.type, found.1)]) start) := by
  unfold typedHeader
  rw [yields_bind]
  refine (parses_type sound).weaken fun result typed parsed => ?_
  cases result with
  | none => exact parsed_none parsed.reached False.elim
  | some type =>
      have under := parsed.made type rfl
      rw [yields_bind]
      refine yields_word under.sound ?_ (parsed_none under.reached False.elim)
      intro name named moved _ _
      have under := under.later moved
      rw [yields_bind, yields_context]
      split
      · exact parsed_some (type, name) under
      · exact parsed_none under.reached False.elim

theorem parses_plain_header {start : ParserState} (sound : start.Sound limit) :
    Yields plainHeader start (Parsed limit True start.here (fun _ : String => []) start) := by
  unfold plainHeader
  rw [yields_bind, yields_current]
  split
  · rename_i name found
    have kind : start.context.current.kind = .word name := by
      unfold TokenKind.word? at found
      split at found
      · cases found
        assumption
      · cases found
    split
    · rw [yields_bind]
      refine yields_begin sound (by simp [kind])
        (by simp [Token.isTrivia, kind, TokenKind.isTrivia]) fun next under => ?_
      exact parsed_some name under
    · exact parsed_missing (.refl sound)
  · exact parsed_missing (.refl sound)

/-- Slots of the header of a function. -/
def headerSlots (found : Option NodeId × String) : List (Category × NodeId) :=
  found.1.toList.map (Prod.mk .type)

theorem parses_header {start : ParserState} (sound : start.Sound limit) :
    Yields header start (Parsed limit True start.here headerSlots start) := by
  unfold header
  rw [yields_bind]
  refine (parsed_attempt sound (parses_typed_header (sound_fork sound))).weaken ?_
  rintro result tried ⟨parsed, dropped⟩
  cases result with
  | some found =>
      exact parsed_some (some found.1, found.2) (parsed.made found rfl)
  | none =>
      have same := dropped rfl
      rw [yields_bind]
      refine (parses_plain_header parsed.reached.sound).weaken fun result final last => ?_
      have order : start.here ≤ tried.here := by
        unfold here
        rw [same]
        exact Position.le_refl _
      have last := last.since parsed.reached order
      cases result with
      | none => exact last.failed (.refl sound)
      | some name => exact parsed_some (none, name) (last.made name rfl)

theorem parses_function {start : ParserState} (sound : start.Sound limit)
    (keyword : start.context.current.kind = .keyword .fnWord) :
    Parses limit .function True start.here function start := by
  unfold Parses function
  rw [yields_bind, yields_current, yields_bind]
  refine yields_begin sound (by simp [keyword])
    (by simp [Token.isTrivia, keyword, TokenKind.isTrivia]) fun next under => ?_
  rw [yields_bind]
  refine (parses_header under.sound).weaken fun result named parsed => ?_
  cases result with
  | none => exact parsed.failed under.reached
  | some found =>
      obtain ⟨result, name⟩ := found
      have under := parsed.joined under
      rw [yields_bind]
      refine (parses_parameters under).weaken fun list read parsed => ?_
      cases list with
      | none => exact parsed.failed (.refl sound)
      | some parameters =>
          have under := parsed.made parameters rfl
          rw [yields_bind]
          refine (parses_body parses_statement under (Nat.le_refl _)).weaken
            fun block final parsed => ?_
          cases block with
          | none => exact parsed.failed (.refl sound)
          | some block =>
              exact parsed_finish (.function result name parameters block)
                (parsed.made block rfl) rfl rfl

/-- What one round of the loop over items keeps: it moves past a token, and what
it made waits for the root. -/
structure Round (limit : Position) (category : Category) (start : ParserState)
    (found : List NodeId) (final : ParserState) : Prop where
  reached : start.Reaches limit final
  ahead : start.position < final.position
  held : start.Holds final start.here (found.map (Prod.mk category))

theorem yields_item {category : Category} {production : Parser (Option NodeId)}
    {start : ParserState} (going : start.context.current.kind ≠ .endOfFile)
    (parses : Parses limit category True start.here production start) :
    Yields (item production) start (Round limit category start) := by
  unfold item
  rw [yields_bind, yields_context, yields_bind]
  refine parses.weaken fun result read parsed => ?_
  cases result with
  | some node =>
      have under := parsed.made node rfl
      exact ⟨under.reached, under.ahead, under.held⟩
  | none =>
      have reached := parsed.reached
      -- A production that moved past no token is helped along.
      have skips : ∀ {state : ParserState}, start.Reaches limit state →
          start.position < state.position →
          Yields (do
            move (ParsingContext.skipUntil startsItem)
            return ([] : List NodeId)) state (Round limit category start) := by
        intro state moved ahead
        rw [yields_bind]
        refine yields_skip_until moved.sound fun final last => ?_
        exact ⟨moved.trans last, Nat.lt_of_lt_of_le ahead last.position, .nil _ _ _⟩
      unfold recover
      rw [yields_bind, yields_bind, yields_context]
      split
      · rename_i stuck
        have same : read.context.current = start.context.current := by
          unfold ParsingContext.current Cursor.current
          rw [reached.cursor.sequence, eq_of_beq stuck]
        rw [yields_bind]
        refine yields_advance reached.sound fun next moved ahead _ _ => ?_
        have ahead := ahead (by rw [same]; exact going)
        rw [← yields_bind]
        exact skips (reached.trans moved) (Nat.lt_of_le_of_lt reached.position ahead)
      · rename_i moved
        have different : start.position ≠ read.position := fun same => moved (by
          unfold ParserState.position at same
          rw [same]
          exact beq_self_eq_true _)
        rw [← yields_bind]
        exact skips reached (Nat.lt_of_le_of_ne reached.position different)

theorem yields_skip_run {start : ParserState} {holds : PUnit → ParserState → Prop}
    (sound : start.Sound limit) (unstarted : startsItem start.context.current.kind = false)
    (met : ∀ final, start.Reaches limit final → start.position < final.position →
      final.tree = start.tree →
      final.context = (start.context.skipUntil startsItem).report .unexpectedTopLevelToken
        (.reaching start.here (start.context.skipUntil startsItem).cursor.previousEnd) →
      holds ⟨⟩ final) : Yields skipRun start holds := by
  have going : start.context.cursor.atEnd = false := by
    unfold startsItem at unstarted
    rw [Bool.or_eq_false_iff] at unstarted
    exact unstarted.2
  unfold skipRun
  rw [yields_bind, yields_current, yields_bind, yields_move]
  have moved : start.Reaches limit
      { start with context := start.context.skipUntil startsItem } :=
    reaches_moved sound (Cursor.follows_skip_while _ sound.inside)
  have ahead := Cursor.skip_while_strict (fun kind => !startsItem kind) sound.inside going
    (by rw [Bool.not_eq_true']; exact unstarted)
  rw [yields_bind, yields_previous_end]
  unfold report
  rw [yields_move]
  have reported := reaches_reported moved.sound .unexpectedTopLevelToken
    (reaching_le_limit sound moved.sound)
  exact met _ (moved.trans reported) ahead rfl rfl

namespace Items

/-- Slots of the root, in source order of what they stand for. -/
def slots (items : Items) : List (Category × NodeId) :=
  (NodeKind.root items.modules items.imports items.functions).slots

/-- Items of each category come in a given order. -/
structure Follow (items : Items) (order : List (Category × NodeId)) : Prop where
  fills : order.Perm items.slots
  modules : (items.modules.map (Prod.mk .moduleDef)).Sublist order
  imports : (items.imports.map (Prod.mk .useDef)).Sublist order
  functions : (items.functions.map (Prod.mk .function)).Sublist order

/-- The items read so far wait for the root, in the order in which they were
read. -/
def Wait (items : Items) (origin state : ParserState) : Prop :=
  ∃ order, items.Follow order ∧ origin.Holds state .start order

variable {origin start : ParserState}

theorem wait_later {items : Items} {final : ParserState} (wait : items.Wait origin start)
    (sound : start.Sound limit) (moved : start.Reaches limit final) : items.Wait origin final := by
  obtain ⟨order, follow, held⟩ := wait
  exact ⟨order, follow, held.later sound moved⟩

theorem wait_round {items more : Items} {category : Category} {found : List NodeId}
    {final : ParserState} (wait : items.Wait origin start) (reached : origin.Reaches limit start)
    (round : Round limit category start found final)
    (grows : ∀ order, items.Follow order → more.Follow (order ++ found.map (Prod.mk category))) :
    more.Wait origin final := by
  obtain ⟨order, follow, held⟩ := wait
  refine ⟨order ++ found.map (Prod.mk category), grows order follow, ?_⟩
  exact held.append reached.sound reached round.reached round.held (Position.start_le _)
      (passed_le_here reached.sound)

section Follow

variable {items : Items} {order : List (Category × NodeId)} (found : List NodeId)

theorem Follow.more_modules (follow : items.Follow order) :
    Follow { items with modules := items.modules ++ found }
      (order ++ found.map (Prod.mk .moduleDef)) where
  fills := by
    refine (follow.fills.append_right _).trans ?_
    rw [List.perm_iff_count]
    intro slot
    simp only [slots, NodeKind.slots, List.map_append, List.count_append]
    omega
  modules := by
    rw [List.map_append]
    exact follow.modules.append (.refl _)
  imports := follow.imports.trans (List.sublist_append_left _ _)
  functions := follow.functions.trans (List.sublist_append_left _ _)

theorem Follow.more_imports (follow : items.Follow order) :
    Follow { items with imports := items.imports ++ found }
      (order ++ found.map (Prod.mk .useDef)) where
  fills := by
    refine (follow.fills.append_right _).trans ?_
    rw [List.perm_iff_count]
    intro slot
    simp only [slots, NodeKind.slots, List.map_append, List.count_append]
    omega
  modules := follow.modules.trans (List.sublist_append_left _ _)
  imports := by
    rw [List.map_append]
    exact follow.imports.append (.refl _)
  functions := follow.functions.trans (List.sublist_append_left _ _)

theorem Follow.more_functions (follow : items.Follow order) :
    Follow { items with functions := items.functions ++ found }
      (order ++ found.map (Prod.mk .function)) where
  fills := by
    refine (follow.fills.append_right _).trans ?_
    rw [List.perm_iff_count]
    intro slot
    simp only [slots, NodeKind.slots, List.map_append, List.count_append]
    omega
  modules := follow.modules.trans (List.sublist_append_left _ _)
  imports := follow.imports.trans (List.sublist_append_left _ _)
  functions := by
    rw [List.map_append]
    exact follow.functions.append (.refl _)

/-- Items of one category are in source order, also once they have their root. -/
theorem pairwise_of_holds {origin state : ParserState} {lower : Position} {category : Category}
    {nodes : List NodeId} {kind : NodeKind NodeId} {span : Span}
    (held : origin.Holds state lower order) (part : (nodes.map (Prod.mk category)).Sublist order) :
    nodes.Pairwise (state.tree.grown kind span).Precedes := by
  have apart := (SourceTree.Builds.apart held).sublist part
  rw [List.pairwise_map] at apart
  refine apart.imp_of_mem fun left right precedes => ?_
  exact precedes.grown (SourceTree.Builds.bound held (part.subset (List.mem_map_of_mem left)))
    (SourceTree.Builds.bound held (part.subset (List.mem_map_of_mem right)))

theorem Follow.rows {origin state : ParserState} {lower : Position} {kind : NodeKind NodeId}
    {span : Span} (follow : items.Follow order) (held : origin.Holds state lower order) :
    (state.tree.grown kind span).Rows items.modules items.imports items.functions where
  modules := pairwise_of_holds held follow.modules
  imports := pairwise_of_holds held follow.imports
  functions := pairwise_of_holds held follow.functions

end Follow

end Items

theorem yields_items_from {budget : Nat} {items : Items} {origin start : ParserState}
    (reached : origin.Reaches limit start) (enough : start.remaining ≤ budget)
    (wait : items.Wait origin start) :
    Yields (itemsFrom budget items) start fun all final =>
      origin.Reaches limit final ∧ all.Wait origin final := by
  induction budget generalizing start items with
  | zero =>
      have positive := remaining_pos reached.sound
      omega
  | succ budget ih =>
      unfold itemsFrom
      rw [yields_bind]
      refine yields_skip_lines reached.sound fun state skipped => ?_
      have wait := Items.wait_later wait reached.sound skipped
      have reached := reached.trans skipped
      have enough := Nat.le_trans (remaining_mono skipped) enough
      have sound := reached.sound
      -- A round of the loop, for an item of any category.
      have rounds : ∀ {category : Category} {production : Parser (Option NodeId)}
          {more : List NodeId → Items}, state.context.current.kind ≠ .endOfFile →
          Parses limit category True state.here production state →
          (∀ found order, items.Follow order →
            (more found).Follow (order ++ found.map (Prod.mk category))) →
          Yields (do
            let found ← item production
            itemsFrom budget (more found)) state fun all final =>
              origin.Reaches limit final ∧ all.Wait origin final := by
        intro category production more going parses grows
        rw [yields_bind]
        refine (yields_item going parses).weaken fun found final round => ?_
        exact ih (reached.trans round.reached)
          (remaining_of_reaches round.reached round.ahead enough)
          (Items.wait_round wait reached round (grows found))
      rw [yields_bind, yields_current]
      split
      · exact ⟨reached, wait⟩
      · rename_i kind
        rw [yields_bind]
        refine yields_advance sound fun next moved ahead _ _ => ?_
        exact ih (reached.trans moved)
          (remaining_of_reaches moved (ahead (by simp [kind])) enough)
          (Items.wait_later wait sound moved)
      · rename_i kind
        have parses := parses_path_item .moduleDef .moduleDef sound (by simp [kind])
          (by simp [Token.isTrivia, kind, TokenKind.isTrivia]) (fun _ => rfl) fun _ => rfl
        exact rounds (by simp [kind]) parses fun found order follow => follow.more_modules found
      · rename_i kind
        have parses := parses_path_item .useDef .useDef sound (by simp [kind])
          (by simp [Token.isTrivia, kind, TokenKind.isTrivia]) (fun _ => rfl) fun _ => rfl
        exact rounds (by simp [kind]) parses fun found order follow => follow.more_imports found
      · rename_i kind
        exact rounds (by simp [kind]) (parses_function sound kind)
          fun found order follow => follow.more_functions found
      · rename_i notEnd _ notModule notUse notFunction
        rw [yields_bind]
        refine yields_skip_run sound (by simp_all [startsItem])
          fun next moved ahead _ _ => ?_
        exact ih (reached.trans moved) (remaining_of_reaches moved ahead enough)
          (Items.wait_later wait sound moved)

/-- A file always gives a root, whose items are filled in source order. -/
theorem yields_root {start : ParserState} (sound : start.Sound limit) :
    Yields root start fun node final => start.Reaches limit final ∧
      ∃ modules imports functions,
        final.tree.arena.kind? node = some (.root modules imports functions) ∧
        final.tree.Rows modules imports functions := by
  unfold root
  rw [yields_bind, yields_remaining, yields_bind]
  have empty : (⟨[], [], []⟩ : Items).Wait start start :=
    ⟨[], ⟨.refl _, .refl _, .refl _, .refl _⟩, .nil _ _ _⟩
  refine (yields_items_from (.refl sound) (Nat.le_refl _) empty).weaken ?_
  rintro items state ⟨reached, order, follow, held⟩
  have last := reached.sound
  rw [yields_bind, yields_current]
  have stop : (Span.reaching .start state.context.current.span.stop).stop =
      state.context.current.span.stop := by
    change max Position.start _ = _
    exact if_pos (Position.start_le _)
  refine yields_make (.reaching .start state.context.current.span.stop) reached held follow.fills
    (fun other => by cases other) ?_ ?_ rfl ?_
  · rw [stop]
    exact Position.le_trans (passed_le_here last) state.context.current.span.ordered
  · rw [stop]
    exact last.laid.inside _
  · intro node final _ grown after kind _
    refine ⟨after, _, _, _, kind, ?_⟩
    rw [grown]
    exact follow.rows held

end ModuleLang.Parser

namespace ModuleLang

variable {text fileName : String}

theorem ParserState.sound_initial (text fileName : String) :
    ParserState.Sound (Position.ending text.toList)
      (.initial (Tokenized.ofText text fileName).sequence fileName) where
  inside := Cursor.inside_of_sequence _
  laid := Tokenized.laid_out_of_text text fileName
  reported := by
    intro found member
    cases member
  constructed := SourceTree.constructed_empty _

namespace ParsedModule

/-- What holds of every module that was parsed. -/
structure Proper (limit : Position) (parsed : ParsedModule) : Prop where
  constructed : parsed.tree.Constructed limit
  root : ∃ modules imports functions,
    parsed.tree.arena.kind? parsed.root = some (.root modules imports functions)
  rows : ∀ {modules imports functions},
    parsed.tree.arena.kind? parsed.root = some (.root modules imports functions) →
    parsed.tree.Rows modules imports functions
  reported : ∀ found ∈ parsed.diagnostics, found.span.stop ≤ limit

theorem of_text_proper (text fileName : String) :
    ∃ parsed, ofText text fileName = .ok parsed ∧ parsed.Proper (Position.ending text.toList) ∧
      parsed.fileName = fileName := by
  obtain ⟨root, final, ran, reached, modules, imports, functions, kind, rows⟩ :=
    yields_iff.mp (Parser.yields_root (ParserState.sound_initial text fileName))
  refine ⟨⟨final.tree, root, (Tokenized.ofText text fileName).diagnostics ++
    final.context.diagnostics, fileName⟩, ?_, ⟨reached.sound.constructed, ⟨_, _, _, kind⟩, ?_, ?_⟩, rfl⟩
  · unfold ofText
    simp only [ran]
  · intro _ _ _ found
    cases kind.symm.trans found
    exact rows
  · intro found member
    obtain lexical | grammatical := List.mem_append.mp member
    · exact Tokenized.diagnostics_of_text text fileName found lexical
    · exact reached.sound.reported found grammatical

end ParsedModule

end ModuleLang
