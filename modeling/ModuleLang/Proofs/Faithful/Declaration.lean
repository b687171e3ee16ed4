import ModuleLang.Parsing.Declaration
import ModuleLang.Proofs.Faithful.Statement
import ModuleLang.Proofs.Parsing.Declaration

/-!
Items are spelt with what they are read from. A production for an item that returns
nothing has reported, so that whatever is passed over to the next item was reported, too.
The items of a file are listed by what they are, and here in the order of the text.
-/

namespace ModuleLang

namespace Parser

open ParserState Nesting

variable {start : ParserState}

/-- The segments of a path, each with the dot behind it. -/
theorem ensures_path_from {budget : Nat} {segments : List String} :
    Ensures (pathFrom budget segments) start
      (Accounts True (fun _ path kinds => ∃ more, path.segments = segments ++ more ∧
        kinds.filter TokenKind.isMark = more.map TokenKind.word ∧ Settles kinds) start) := by
  induction budget generalizing start segments with
  | zero => exact ensures_throw _ _ _
  | succ budget ih =>
      unfold pathFrom
      rw [ensures_bind]
      apply ensures_word
      · intro segment named passes
        rw [ensures_bind]
        apply ensures_accept
        · intro dotted more
          have passes := passes.trans more
          rw [if_pos rfl]
          refine ensures_ends ih ?_ ?_
          · rintro path kinds final ⟨others, same, marks, settles⟩ more
            refine accounts_some ⟨segment :: others, ?_, ?_, ?_⟩ (passes.trans more)
            · rw [same, List.append_assoc]
              rfl
            · simp [List.filter_cons, marks]
            · exact ((settles_word segment).append (settles_plain rfl)).append settles
          · intro final goes grows
            exact accounts_none (passes.goes.trans goes) fun isLoud =>
              (grows isLoud).before passes.goes
        · rw [if_neg Bool.false_ne_true]
          apply (ensures_pure _ _ _).mpr
          exact accounts_some ⟨[segment], rfl, rfl, settles_word segment⟩ passes
      · exact accounts_missing (.refl start)

theorem ensures_path_item {kind : ModulePath → NodeKind NodeId}
    {form : ModulePath → NodeKind (List TokenKind)} {reserved : Keyword}
    (begins : start.context.current.kind = .keyword reserved)
    (alike : ∀ (arena : Arena) (path : ModulePath),
      (kind path).Alike (fun _ child kinds => arena.Carries child kinds) (form path))
    (same : ∀ path, (form path).marks = .keyword reserved :: path.segments.map TokenKind.word) :
    Ensures (pathItem kind) start (Accounts True Arena.Spelt start) := by
  unfold pathItem
  rw [ensures_bind, ensures_current, ensures_bind]
  apply ensures_advance
  intro next passes
  rw [begins] at passes
  rw [ensures_bind, ensures_remaining]
  refine accounts_then ensures_path_from passes.goes id rfl ?_
  rintro path kinds read ⟨segments, all, marks, settles⟩ more
  have passes := passes.trans more
  rw [ensures_bind]
  have carried : (form path).marks =
      ([TokenKind.keyword reserved] ++ kinds).filter TokenKind.isMark := by
    rw [same, all]
    simp [List.filter_cons, marks]
  apply ensures_made (alike _ path) carried ((settles_keyword reserved).append settles)
  intro node made more _ spelt
  exact accounts_ended (passes.on more) spelt

theorem faithful_parameter : Faithful False Arena.Spelt parameter := by
  intro start
  unfold parameter
  rw [ensures_bind, ensures_current]
  refine accounts_then (faithful_type start) (.refl start) False.elim rfl ?_
  intro type kinds typed typeSpelt passes
  rw [ensures_bind]
  apply ensures_word
  · intro name named more
    refine accounts_finish (passes.trans more)
      (.parameter (typeSpelt.carries.later more.goes.keeps)) (by simp [List.filter_cons]) ?_
    exact typeSpelt.settles.append (settles_word name)
  · exact (ensures_pure _ _ _).mpr (accounts_none passes.goes False.elim)

theorem ensures_parameters_from {budget : Nat} {found : List NodeId} {before : List TokenKind}
    (held : Arena.Lists Neutral start.tree.arena found before) :
    Ensures (parametersFrom budget found) start
      (Accounts True (fun arena all kinds => Arena.Lists Closes arena all (before ++ kinds))
        start) := by
  induction budget generalizing start found before with
  | zero => exact ensures_throw _ _ _
  | succ budget ih =>
      unfold parametersFrom
      rw [ensures_bind]
      apply ensures_attempt (faithful_parameter _)
      · intro parameter kinds read spelt passes
        have held := (held.later passes.goes.keeps).concat spelt
        dsimp only
        rw [ensures_bind]
        apply ensures_skip_lines
        intro skipped more
        have held := held.later more.goes.keeps
        have passes := passes.on more
        rw [ensures_bind]
        apply ensures_accept
        · intro behind more
          have held := (held.later more.goes.keeps).separated .comma
          have passes := passes.trans more
          rw [if_pos rfl, ensures_bind]
          apply ensures_skip_lines
          intro next more
          have passes := passes.on more
          have held := held.later more.goes.keeps
          rw [List.append_assoc] at held
          apply (ih held).weaken
          intro result final accounts
          exact accounts.behind passes
        · rw [if_neg Bool.false_ne_true, ensures_bind]
          apply ensures_expect
          intro final more
          have held := (held.later more.goes.keeps).closed
          rw [List.append_assoc] at held
          apply (ensures_pure _ _ _).mpr
          exact accounts_some held (passes.trans more)
      · intro dropped passes _
        exact accounts_missing passes.goes

theorem faithful_parameters : Faithful True (Arena.Lists Settles) parameters := by
  intro start
  unfold parameters
  rw [ensures_bind]
  apply ensures_accept
  · intro opened passes
    rw [Bool.not_true, if_neg Bool.false_ne_true, ensures_bind]
    apply ensures_skip_lines
    intro skipped more
    have passes := passes.on more
    rw [ensures_bind]
    apply ensures_accept
    · intro final more
      rw [if_pos rfl]
      apply (ensures_pure _ _ _).mpr
      exact accounts_some (Arena.Lists.nil _).closed.grouped (passes.trans more)
    · rw [if_neg Bool.false_ne_true, ensures_bind, ensures_remaining]
      refine ensures_ends (ensures_parameters_from (.nil _)) ?_ ?_
      · intro parameters kinds final lists more
        exact accounts_some lists.grouped (passes.trans more)
      · intro final goes grows
        exact accounts_none (passes.goes.trans goes) fun isLoud =>
          (grows isLoud).before passes.goes
  · rw [Bool.not_false, if_pos rfl]
    exact accounts_missing (.refl start)

/-- The header of a function was spelt with some tokens. -/
def HeaderSpelt (arena : Arena) (found : Option NodeId × String) (kinds : List TokenKind) : Prop :=
  ∃ written, Option.Rel arena.Carries found.1 written ∧
    kinds.filter TokenKind.isMark = written.toList.flatten ++ [.word found.2] ∧ Settles kinds

theorem faithful_typed_header :
    Faithful False (fun arena found => HeaderSpelt arena (some found.1, found.2)) typedHeader := by
  intro start
  unfold typedHeader
  refine accounts_then (faithful_type start) (.refl start) False.elim rfl ?_
  intro result kinds typed spelt passes
  rw [ensures_bind]
  apply ensures_word
  · intro name named more
    have passes := passes.trans more
    rw [ensures_bind, ensures_context]
    split
    · apply (ensures_pure _ _ _).mpr
      have header : HeaderSpelt named.tree.arena (some result, name) (kinds ++ [.word name]) :=
        ⟨_, .some (spelt.carries.later more.goes.keeps), by simp [List.filter_cons],
          spelt.settles.append (settles_word name)⟩
      exact accounts_some header passes
    · exact (ensures_pure _ _ _).mpr (accounts_none passes.goes False.elim)
  · exact (ensures_pure _ _ _).mpr (accounts_none passes.goes False.elim)

theorem faithful_plain_header :
    Faithful True (fun arena name => HeaderSpelt arena (none, name)) plainHeader := by
  intro start
  unfold plainHeader
  rw [ensures_bind, ensures_current]
  split
  · rename_i name found
    have kind : start.context.current.kind = .word name := by
      unfold TokenKind.word? at found
      split at found
      · cases found
        assumption
      · cases found
    split
    · rw [ensures_bind]
      apply ensures_advance
      intro final passes
      rw [kind] at passes
      apply (ensures_pure _ _ _).mpr
      have header : HeaderSpelt final.tree.arena (none, name) [.word name] :=
        ⟨none, .none, rfl, settles_word name⟩
      exact accounts_some header passes
    · exact accounts_missing (.refl start)
  · exact accounts_missing (.refl start)

theorem faithful_header : Faithful True HeaderSpelt header := by
  intro start
  unfold header
  rw [ensures_bind]
  apply ensures_attempt (faithful_typed_header _)
  · rintro ⟨result, name⟩ kinds final spelt passes
    exact (ensures_pure _ _ _).mpr (accounts_some spelt passes)
  · intro dropped passes _
    dsimp only
    rw [ensures_bind]
    refine ensures_ends (faithful_plain_header dropped) ?_ ?_
    · intro name kinds final spelt more
      apply (ensures_pure _ _ _).mpr
      have header : HeaderSpelt final.tree.arena (none, name) kinds := spelt
      exact accounts_some header (passes.since more)
    · intro final goes grows
      apply (ensures_pure _ _ _).mpr
      exact accounts_none (passes.goes.trans goes) fun isLoud =>
        (grows isLoud).before passes.goes

theorem ensures_function (begins : start.context.current.kind = .keyword .fnWord) :
    Ensures function start (Accounts True Arena.Spelt start) := by
  unfold function
  rw [ensures_bind, ensures_current, ensures_bind]
  apply ensures_advance
  intro next passes
  rw [begins] at passes
  refine accounts_then (faithful_header next) passes.goes id rfl ?_
  rintro ⟨result, name⟩ kinds named ⟨written, related, marks, settles⟩ more
  have passes := passes.trans more
  dsimp only at related marks
  refine accounts_then (faithful_parameters named) passes.goes id rfl ?_
  intro parameters others read lists more
  rcases lists.carries with ⟨each, held, same⟩
  have passes := passes.trans more
  refine accounts_then (faithful_body faithful_statement read) passes.goes id rfl ?_
  intro block rest final blockSpelt also
  have result : Option.Rel final.tree.arena.Carries result written := by
    cases related with
    | none => exact .none
    | some carries =>
        exact .some ((carries.later more.goes.keeps).later also.goes.keeps)
  have held := held.imp fun _ _ carries => carries.later also.goes.keeps
  have header := (settles_keyword .fnWord).append settles
  refine accounts_finish (passes.trans also) (.function result held blockSpelt.carries)
    (by simp [List.filter_cons, marks, same]) ?_
  exact (header.append lists.nested).append blockSpelt.settles

/-- An item that fails has reported, so that nothing is claimed about what is passed over
up to the next one. -/
theorem ensures_item {production : Parser (Option NodeId)}
    (ran : Ensures production start (Accounts True Arena.Spelt start)) :
    Ensures (item production) start fun found final =>
      ∃ kinds, Arena.Lists Neutral final.tree.arena found kinds ∧ start.Passes kinds final := by
  unfold item
  rw [ensures_bind, ensures_context, ensures_bind]
  refine ensures_ends ran ?_ ?_
  · intro node kinds final spelt passes
    exact (ensures_pure _ _ _).mpr ⟨kinds, (Arena.Lists.nil _).concat spelt, passes⟩
  · intro read goes grows
    have skips : ∀ {state : ParserState}, read.Goes state →
        Ensures (do
          move (ParsingContext.skipUntil startsItem)
          return ([] : List NodeId)) state fun found final =>
            ∃ kinds, Arena.Lists Neutral final.tree.arena found kinds ∧
              start.Passes kinds final := by
      intro state more
      rw [ensures_bind, ensures_move]
      apply (ensures_pure _ _ _).mpr
      have skipped : state.Goes { state with
          context := state.context.skipUntil startsItem } :=
        goes_moved fun inside => Cursor.follows_skip_while _ inside
      have later := more.trans skipped
      exact ⟨[], .nil _, (goes.trans later).passes ((grows trivial).after later)⟩
    unfold recover
    rw [ensures_bind, ensures_bind, ensures_context]
    split
    · rw [ensures_bind]
      apply ensures_advance
      intro next more
      rw [← ensures_bind]
      exact skips more.goes
    · rw [← ensures_bind]
      exact skips (.refl read)

theorem ensures_skip_run {holds : PUnit → ParserState → Prop}
    (met : ∀ final, start.Goes final → start.Grows final → holds ⟨⟩ final) :
    Ensures skipRun start holds := by
  unfold skipRun
  rw [ensures_bind, ensures_current, ensures_bind, ensures_move, ensures_bind,
    ensures_previous_end]
  have skipped : start.Goes { start with context := start.context.skipUntil startsItem } :=
    goes_moved fun inside => Cursor.follows_skip_while _ inside
  apply ensures_report
  intro final goes grows
  exact met final (skipped.trans goes) (grows.before skipped)

namespace Items

/-- The items read so far, in the order in which they were read, were spelt with what was
passed over. -/
def Told (items : Items) (origin state : ParserState) : Prop :=
  ∃ order kinds, order.Perm items.slots ∧ origin.Holds state .start order ∧
    Arena.Lists Neutral state.tree.arena (order.map Prod.snd) kinds ∧ origin.Passes kinds state

variable {limit : Position} {items more : Items} {origin state final : ParserState}
  {category : Category} {found : List NodeId} {kinds : List TokenKind}

theorem Told.on (told : items.Told origin state) (sound : state.Sound limit)
    (moved : state.Reaches limit final) (silent : Silent kinds) (passes : state.Passes kinds final) :
    items.Told origin final := by
  rcases told with ⟨order, before, fills, held, lists, passed⟩
  exact ⟨order, _, fills, held.later sound moved,
    (lists.later passes.goes.keeps).separated silent, passed.trans passes⟩

theorem told_round (told : items.Told origin state) (reached : origin.Reaches limit state)
    (round : Round limit category state found final)
    (lists : Arena.Lists Neutral final.tree.arena found kinds) (passes : state.Passes kinds final)
    (fills : (items.slots ++ found.map (Prod.mk category)).Perm more.slots) :
    more.Told origin final := by
  rcases told with ⟨order, before, same, held, earlier, passed⟩
  have earlier := earlier.later passes.goes.keeps
  refine ⟨order ++ found.map (Prod.mk category), before ++ kinds,
    (same.append_right _).trans fills, ?_, ?_, passed.trans passes⟩
  · exact held.append reached.sound reached round.reached round.held (Position.start_le _)
      (passed_le_here reached.sound)
  · have nodes : (order ++ found.map (Prod.mk category)).map Prod.snd =
        order.map Prod.snd ++ found := by
      simp [Function.comp_def]
    rw [nodes]
    refine ⟨?_, earlier.nested.append lists.nested⟩
    rw [List.filter_append]
    exact Arena.CarryAll.append earlier.carries lists.carries

end Items

variable {limit : Position}

theorem yields_items_told {budget : Nat} {items : Items} {origin : ParserState}
    (reached : origin.Reaches limit start) (enough : start.remaining ≤ budget)
    (told : items.Told origin start) :
    Yields (itemsFrom budget items) start fun all final =>
      origin.Reaches limit final ∧ all.Told origin final ∧
        final.context.current.kind = .endOfFile := by
  induction budget generalizing start items with
  | zero =>
      have positive := remaining_pos reached.sound
      omega
  | succ budget ih =>
      have skips : Yields skipLines start fun _ state =>
          start.Reaches limit state ∧ start.Passes [] state :=
        (yields_skip_lines reached.sound fun _ moved => moved).ensured
          (ensures_skip_lines fun _ passes => passes)
      unfold itemsFrom
      rw [yields_bind]
      apply skips.weaken
      rintro _ state ⟨skipped, passes⟩
      have told := told.on reached.sound skipped .nil passes
      have reached := reached.trans skipped
      have enough := Nat.le_trans (remaining_mono skipped) enough
      have sound := reached.sound
      -- A round of the loop, for an item of any category.
      have rounds : ∀ {category : Category} {production : Parser (Option NodeId)}
          {more : List NodeId → Items}, state.context.current.kind ≠ .endOfFile →
          Parses limit category True state.here production state →
          Ensures production state (Accounts True Arena.Spelt state) →
          (∀ found, (items.slots ++ found.map (Prod.mk category)).Perm (more found).slots) →
          Yields (do
            let found ← item production
            itemsFrom budget (more found)) state fun all final =>
              origin.Reaches limit final ∧ all.Told origin final ∧
                final.context.current.kind = .endOfFile := by
        intro category production more going parses accounts fills
        rw [yields_bind]
        apply ((yields_item going parses).ensured (ensures_item accounts)).weaken
        rintro found final ⟨round, kinds, lists, passes⟩
        exact ih (reached.trans round.reached)
          (remaining_of_reaches round.reached round.ahead enough)
          (Items.told_round told reached round lists passes (fills found))
      rw [yields_bind, yields_current]
      split
      · rename_i kind
        exact ⟨reached, told, kind⟩
      · rename_i kind
        have advances : Yields advance state fun _ next => (state.Reaches limit next ∧
            state.position < next.position) ∧ state.Passes [.endOfStatement] next := by
          apply Yields.ensured
          · exact yields_advance sound fun next moved ahead _ _ => ⟨moved, ahead (by simp [kind])⟩
          · apply ensures_advance
            intro next passes
            rw [kind] at passes
            exact passes
        rw [yields_bind]
        apply advances.weaken
        rintro _ next ⟨⟨moved, ahead⟩, passes⟩
        exact ih (reached.trans moved) (remaining_of_reaches moved ahead enough)
          (told.on sound moved silent_end passes)
      · rename_i kind
        have parses := parses_path_item .moduleDef .moduleDef sound (by simp [kind])
          (by simp [Token.isTrivia, kind, TokenKind.isTrivia]) (fun _ => rfl) fun _ => rfl
        have accounts := ensures_path_item kind
          (fun _ path => NodeKind.Alike.moduleDef path) (fun path => by simp)
        refine rounds (by simp [kind]) parses accounts ?_
        intro found
        rw [List.perm_iff_count]
        intro slot
        simp only [Items.slots, NodeKind.slots, List.map_append, List.count_append]
        omega
      · rename_i kind
        have parses := parses_path_item .useDef .useDef sound (by simp [kind])
          (by simp [Token.isTrivia, kind, TokenKind.isTrivia]) (fun _ => rfl) fun _ => rfl
        have accounts := ensures_path_item kind
          (fun _ path => NodeKind.Alike.useDef path) (fun path => by simp)
        refine rounds (by simp [kind]) parses accounts ?_
        intro found
        rw [List.perm_iff_count]
        intro slot
        simp only [Items.slots, NodeKind.slots, List.map_append, List.count_append]
        omega
      · rename_i kind
        refine rounds (by simp [kind]) (parses_function sound kind) (ensures_function kind) ?_
        intro found
        rw [List.perm_iff_count]
        intro slot
        simp only [Items.slots, NodeKind.slots, List.map_append, List.count_append]
        omega
      · rename_i notEnd _ notModule notUse notFunction
        have skips : Yields skipRun state fun _ next => (state.Reaches limit next ∧
            state.position < next.position) ∧ state.Passes [] next :=
          (yields_skip_run sound (by simp_all [startsItem])
            fun next moved ahead _ _ => ⟨moved, ahead⟩).ensured
              (ensures_skip_run fun next goes grows => goes.passes grows)
        rw [yields_bind]
        apply skips.weaken
        rintro _ next ⟨⟨moved, ahead⟩, passes⟩
        exact ih (reached.trans moved) (remaining_of_reaches moved ahead enough)
          (told.on sound moved .nil passes)

end Parser

end ModuleLang
