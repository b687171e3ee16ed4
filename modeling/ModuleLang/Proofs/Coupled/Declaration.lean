import ModuleLang.Proofs.Coupled.Statement
import ModuleLang.Proofs.Faithful.Declaration

/-!
Items of a file in two runs of the parser. They go on in step until the first run has come
to the end of its file. There the second run may go on by itself, with the items that both
have found; or the second run was lost before, and then the first one has reported.
-/

namespace ModuleLang

namespace Parser

open ParserState

variable {coupling : Coupling} {start other : ParserState}

theorem together_path_from (budget bound : Nat) (segments : List String)
    (paired : coupling.Paired 0 start other) :
    Together (pathFrom budget segments) (pathFrom bound segments) start other
      (coupling.Agrees Eq 0) := by
  induction budget generalizing bound start other segments with
  | zero => exact together_throw_left _
  | succ budget ih =>
      cases bound with
      | zero => exact together_throw_right _
      | succ bound =>
          unfold pathFrom
          rw [together_bind]
          apply together_word paired
          · intro name named called paired
            dsimp only
            rw [together_bind]
            apply together_accept paired
            · intro next after paired
              rw [if_pos rfl, if_pos rfl]
              exact ih bound _ paired
            · rw [if_neg Bool.false_ne_true, if_neg Bool.false_ne_true]
              exact together_some rfl paired
          · exact together_missing paired

theorem together_path_item {kind : ModulePath → NodeKind NodeId} {reserved : Keyword}
    (begins : start.context.current.kind = .keyword reserved)
    (leaf : ∀ path, (kind path).map (NodeId.raised coupling.ids) = kind path)
    (trees : coupling.trees start.tree other.tree)
    (ready : coupling.ready start.context other.context) :
    Together (pathItem kind) (pathItem kind) start other
      (coupling.Agrees coupling.Partner 0) := by
  have starts := coupling.readyStarts ready
  unfold pathItem
  rw [together_bind, together_current, together_bind]
  unfold advance
  rw [together_move, together_bind, together_remaining]
  have paired : coupling.Paired 0 { start with context := start.context.advance }
      { other with context := other.context.advance } :=
    ⟨trees, coupling.readyAdvanced ready (by rw [begins]; rfl)⟩
  refine together_then (together_path_from _ _ [] paired) rfl rfl ?_
  rintro path _ read seen rfl paired
  rw [together_bind]
  apply together_finish paired (leaf path).symm starts
  intro node final last paired
  exact together_ended rfl paired

theorem together_parameter : coupling.Couples coupling.Partner parameter parameter := by
  intro depth start other paired
  have starts := coupling.starts paired.contexts
  unfold parameter
  rw [together_bind, together_current]
  refine together_then (together_type paired) rfl rfl ?_
  rintro type _ read seen rfl paired
  rw [together_bind]
  apply together_word paired
  · intro name named called paired
    exact together_made paired rfl starts
  · exact together_none paired

theorem together_parameters_from {depth : Nat} (budget bound : Nat)
    {parameters others : List NodeId} (partners : coupling.Partners parameters others)
    (paired : coupling.Paired (depth + 1) start other) :
    Together (parametersFrom budget parameters) (parametersFrom bound others) start other
      (coupling.Agrees coupling.Partners depth) := by
  induction budget generalizing bound start other parameters others with
  | zero => exact together_throw_left _
  | succ budget ih =>
      cases bound with
      | zero => exact together_throw_right _
      | succ bound =>
          unfold parametersFrom
          rw [together_bind]
          apply together_attempt paired (together_parameter _ _ _ paired.forked)
          · intro parameter partner read seen same paired
            have partners : coupling.Partners (parameters ++ [parameter]) (others ++ [partner]) :=
              partners.concat same
            dsimp only
            rw [together_bind]
            apply together_grouped paired rfl
            intro skipped passed paired
            rw [together_bind]
            apply together_accept paired
            · intro behind after paired
              rw [if_pos rfl, if_pos rfl, together_bind]
              apply together_grouped paired rfl
              intro next then' paired
              exact ih bound partners paired
            · rw [if_neg Bool.false_ne_true, if_neg Bool.false_ne_true, together_bind]
              apply together_expect paired ⟨Nat.le_refl _, Nat.le_succ _⟩
              intro final last paired
              exact together_some partners paired
          · intro dropped left _ paired
            exact together_missing paired

theorem together_parameters :
    coupling.Couples coupling.Partners parameters parameters := by
  intro depth start other paired
  unfold parameters
  rw [together_bind]
  apply together_accept paired
  · intro opened entered paired
    rw [Bool.not_true, if_neg Bool.false_ne_true, together_bind]
    apply together_grouped paired rfl
    intro skipped passed paired
    rw [together_bind]
    apply together_accept paired
    · intro final last paired
      rw [if_pos rfl]
      exact together_some rfl paired
    · rw [if_neg Bool.false_ne_true, together_bind, together_remaining]
      exact together_parameters_from _ _ rfl paired
  · rw [Bool.not_false, if_pos rfl]
    exact together_missing paired

theorem together_typed_header : coupling.Couples
    (fun found partner => partner = (found.1.raised coupling.ids, found.2))
    typedHeader typedHeader := by
  intro depth start other paired
  unfold typedHeader
  refine together_then (together_type paired) rfl rfl ?_
  rintro result _ read seen rfl paired
  rw [together_bind]
  apply together_word paired
  · intro name named called paired
    dsimp only
    rw [together_bind, together_context, paired.at_punctuation]
    split
    · exact together_some rfl paired
    · exact together_none paired
  · exact together_none paired

theorem together_plain_header : coupling.Couples Eq plainHeader plainHeader := by
  intro depth start other paired
  have same : other.context.current.kind.word? = start.context.current.kind.word? :=
    paired.same_test rfl
  unfold plainHeader
  rw [together_bind, together_current, same]
  split
  · rename_i name found
    have kind : start.context.current.kind = .word name := by
      unfold TokenKind.word? at found
      split at found
      · cases found
        assumption
      · cases found
    split
    · rw [together_bind]
      apply together_advance paired (by rw [kind]; rfl)
      intro read seen paired
      rw [kind] at paired
      exact together_some rfl paired
    · exact together_missing paired
  · exact together_missing paired

theorem together_header : coupling.Couples
    (fun found partner => partner = (found.1.map (NodeId.raised coupling.ids), found.2))
    header header := by
  intro depth start other paired
  unfold header
  rw [together_bind]
  apply together_attempt paired (together_typed_header _ _ _ paired.forked)
  · rintro ⟨result, name⟩ _ final last rfl paired
    exact together_some rfl paired
  · intro dropped left _ paired
    dsimp only
    rw [together_bind]
    apply (together_plain_header _ _ _ paired).weaken
    intro result final image last agrees
    cases agrees with
    | missing paired => exact together_none paired
    | present same paired =>
        cases same
        exact together_some rfl paired

theorem together_function (begins : start.context.current.kind = .keyword .fnWord)
    (trees : coupling.trees start.tree other.tree)
    (ready : coupling.ready start.context other.context) :
    Together function function start other (coupling.Meets coupling.Partner) := by
  have starts := coupling.readyStarts ready
  unfold function
  rw [together_bind, together_current, together_bind]
  unfold advance
  rw [together_move]
  have paired : coupling.Paired 0 { start with context := start.context.advance }
      { other with context := other.context.advance } :=
    ⟨trees, coupling.readyAdvanced ready (by rw [begins]; rfl)⟩
  refine together_in_step (together_header _ _ _ paired) rfl rfl ?_
  rintro ⟨result, name⟩ _ read seen rfl paired
  refine together_in_step (together_parameters _ _ _ paired) rfl rfl ?_
  rintro parameters _ behind beyond rfl paired
  refine together_unless (together_body together_statement faithful_statement _ _ paired) rfl rfl
    ?_ ?_
  · rintro body _ final last rfl paired
    exact together_agree (together_made paired rfl starts)
  · intro body final lost
    exact ensures_lost_made lost

/-- An item that failed is passed over in both runs, or the first one is at its end. -/
theorem together_item {production : Parser (Option NodeId)}
    (ready : coupling.ready start.context other.context)
    (solid : start.context.current.kind.isSolid = true)
    (ran : Together production production start other (coupling.Meets coupling.Partner))
    (accounts : Ensures production start (Accounts True Arena.Spelt start)) :
    Together (item production) (item production) start other fun found final twins last =>
      coupling.Partners found twins ∧ coupling.Paired 0 final last ∨
        coupling.Lost (some found) final := by
  unfold item
  rw [together_bind, together_context, together_bind]
  apply (ran.and_left accounts).weaken
  rintro result final image last ⟨meets, accounts⟩
  cases meets with
  | lost missed =>
      cases result with
      | none => cases missed.found
      | some node =>
          apply Together.of_left
          apply (ensures_pure _ _ _).mpr
          intro twins last
          exact .inr (missed.as rfl rfl)
  | agree agrees =>
      cases agrees with
      | present same paired =>
          apply (together_pure _ _).mpr
          refine .inl ⟨?_, paired⟩
          rw [Coupling.Partners, same, List.map_singleton]
      | missing paired =>
          have told : final.context.diagnostics ≠ [] := by
            have grows := accounts.grows rfl trivial
            intro none
            rw [Grows, none] at grows
            exact Nat.not_lt_zero _ grows
          have passes : ∀ {state twin : ParserState}, coupling.Paired 0 state twin →
              state.context.diagnostics ≠ [] →
              Together (do
                move (ParsingContext.skipUntil startsItem)
                return ([] : List NodeId)) (do
                move (ParsingContext.skipUntil startsItem)
                return ([] : List NodeId)) state twin fun found final twins last =>
                  coupling.Partners found twins ∧ coupling.Paired 0 final last ∨
                    coupling.Lost (some found) final := by
            intro state twin paired told
            rw [together_bind, together_move]
            apply (together_pure _ _).mpr
            rcases coupling.recovered paired.contexts with beside | ⟨lenient, ended⟩
            · exact .inl ⟨rfl, paired.moved beside⟩
            · exact .inr ⟨lenient, rfl, told, ParsingContext.ended_of_current ended⟩
          dsimp only
          unfold recover
          rw [together_bind, together_bind, together_context]
          rcases coupling.readyMoved ready paired.contexts with
            ⟨here, there, kind⟩ | ⟨here, there⟩
          · rw [if_pos (beq_iff_eq.mpr here), if_pos (beq_iff_eq.mpr there), together_bind]
            have advances := paired.moved (coupling.advanced paired.contexts (by rw [kind]; exact solid))
            unfold advance
            rw [together_move, ← together_bind]
            exact passes (advances.shallower (Nat.zero_le _)) told
          · rw [if_neg (fun same => here (beq_iff_eq.mp same)),
              if_neg (fun same => there (beq_iff_eq.mp same))]
            rw [← together_bind]
            exact passes paired told

/-- A run of tokens that begin no item is passed over in both runs, or the first one is at
its end. -/
theorem together_skip_run (trees : coupling.trees start.tree other.tree)
    (ready : coupling.ready start.context other.context)
    (solid : start.context.current.kind.isSolid = true)
    (begins : startsItem start.context.current.kind = false) :
    Together skipRun skipRun start other fun _ final _ last =>
      coupling.Paired 0 final last ∨ coupling.Lost (some ()) final := by
  have starts := coupling.readyStarts ready
  unfold skipRun
  rw [together_bind, together_current, together_bind, together_move, together_bind,
    together_previous_end]
  rcases coupling.readyPassed ready solid begins with beside | ⟨lenient, ended⟩
  · have passed := coupling.ends beside
    have paired : coupling.Paired 0
        { start with context := start.context.skipUntil startsItem }
        { other with context := other.context.skipUntil startsItem } := ⟨trees, beside⟩
    unfold ParserState.passed
    rw [starts, passed, ← Span.lowered_reaching]
    apply together_report paired
    intro final last paired
    exact .inl paired
  · unfold report
    rw [together_move]
    refine .inr ⟨lenient, rfl, ?_, ParsingContext.ended_of_current ended⟩
    exact List.append_ne_nil_of_right_ne_nil _ (List.cons_ne_nil _ _)

/-- The items of the second run behind those that it begins with. -/
def Items.onto (before items : Items) (ids : Nat) : Items where
  modules := before.modules ++ items.modules.map (NodeId.raised ids)
  imports := before.imports ++ items.imports.map (NodeId.raised ids)
  functions := before.functions ++ items.functions.map (NodeId.raised ids)

variable (coupling) in
/-- Where two runs over the items of a file end, the second of which began with some
items. -/
inductive Concludes (before : Items) (items : Items) (final : ParserState) (others : Items)
    (last : ParserState) : Prop
  /-- Both have come to the end of their file. -/
  | both (same : others = before.onto items coupling.ids)
      (trees : coupling.trees final.tree last.tree)
      (ready : coupling.ready final.context last.context)
      (ended : final.context.current.kind = .endOfFile)
  /-- The second one was lost. -/
  | lost (lost : coupling.Lost (some items) final)
  /-- The second one goes on behind the end of the first file. -/
  | parted {state twin : ParserState} (lenient : coupling.lenient)
      (trees : coupling.trees state.tree twin.tree)
      (apart : coupling.apart state.context twin.context)
      (moved : final = { state with context := state.context.skipLines }) (bound : Nat)
      (ran : (itemsFrom bound (before.onto items coupling.ids)).run twin = .ok others last)

theorem ensures_ended_items {budget : Nat} {items : Items} {state : ParserState}
    (ended : state.context.skipLines.current.kind = .endOfFile) :
    Ensures (itemsFrom budget items) state fun all final =>
      all = items ∧ final = { state with context := state.context.skipLines } := by
  cases budget with
  | zero => exact ensures_throw _ _ _
  | succ budget =>
      unfold itemsFrom
      rw [ensures_bind]
      unfold skipLines
      rw [ensures_move, ensures_bind, ensures_current]
      dsimp only
      rw [ended]
      exact (ensures_pure _ _ _).mpr ⟨rfl, rfl⟩

theorem concludes_of_lost {budget bound : Nat} {before items others : Items} {value : Type}
    {found : Option value} (lost : coupling.Lost found start) :
    Together (itemsFrom budget items) (itemsFrom bound others) start other
      (Concludes coupling before) := by
  apply Together.of_left
  apply (ensures_ended_items lost.ended).weaken
  rintro all final ⟨rfl, rfl⟩ whole last
  exact .lost ⟨lost.lenient, rfl, lost.told, ParsingContext.ended_of_current lost.ended⟩

theorem together_items (budget bound : Nat) (before items : Items)
    (trees : coupling.trees start.tree other.tree)
    (readied : coupling.ready start.context.skipLines other.context.skipLines ∨
      coupling.lenient ∧ coupling.apart start.context other.context) :
    Together (itemsFrom budget items) (itemsFrom bound (before.onto items coupling.ids)) start other
      (Concludes coupling before) := by
  induction budget generalizing bound start other items with
  | zero => exact together_throw_left _
  | succ budget ih =>
      -- Behind a round both go on, unless the second run is lost.
      have goes_on : ∀ {production : Parser (Option NodeId)} {bound : Nat}
          {one two : ParserState} {with' : List NodeId → Items} {twin : List NodeId → Items},
          (∀ nodes, twin (nodes.map (NodeId.raised coupling.ids)) =
            before.onto (with' nodes) coupling.ids) →
          Together (item production) (item production) one two (fun found final twins last =>
            coupling.Partners found twins ∧ coupling.Paired 0 final last ∨
              coupling.Lost (some found) final) →
          Together (do
            let found ← item production
            itemsFrom budget (with' found)) (do
            let found ← item production
            itemsFrom bound (twin found)) one two (Concludes coupling before) := by
        intro production bound one two with' twin same ran
        rw [together_bind]
        apply ran.weaken
        rintro found final twins last (⟨rfl, paired⟩ | lost)
        · rw [same]
          exact ih bound _ paired.trees (coupling.readied paired.contexts)
        · exact concludes_of_lost lost
      cases bound with
      | zero => exact together_throw_right _
      | succ bound =>
          rcases readied with ready | ⟨lenient, apart⟩
          · have kinds := coupling.readyKind ready
            unfold itemsFrom
            rw [together_bind]
            unfold skipLines
            rw [together_move, together_bind, together_current]
            dsimp only
            rw [kinds]
            split
            · rename_i kind
              exact (together_pure _ _).mpr (.both rfl trees ready kind)
            · rename_i kind
              have beside := coupling.readyAdvanced ready (by rw [kind]; rfl)
              rw [together_bind]
              unfold advance
              rw [together_move]
              exact ih bound items trees (coupling.readied beside)
            · rename_i kind
              apply goes_on
              · intro nodes
                simp [Items.onto]
              · apply together_item ready
                · rw [kind]
                  rfl
                · apply together_agree
                  exact together_path_item kind (fun _ => rfl) trees ready
                · exact ensures_path_item kind (fun _ path => NodeKind.Alike.moduleDef path)
                    (fun path => by simp)
            · rename_i kind
              apply goes_on
              · intro nodes
                simp [Items.onto]
              · apply together_item ready
                · rw [kind]
                  rfl
                · apply together_agree
                  exact together_path_item kind (fun _ => rfl) trees ready
                · exact ensures_path_item kind (fun _ path => NodeKind.Alike.useDef path)
                    (fun path => by simp)
            · rename_i kind
              apply goes_on
              · intro nodes
                simp [Items.onto]
              · apply together_item ready
                · rw [kind]
                  rfl
                · exact together_function kind trees ready
                · exact ensures_function kind
            · rename_i going _ modules uses functions
              have begins : startsItem start.context.skipLines.current.kind = false := by
                simp only [startsItem, Bool.or_eq_false_iff, beq_eq_false_iff_ne]
                exact ⟨⟨⟨functions, modules⟩, uses⟩, going⟩
              rw [together_bind]
              have solid := coupling.readySolid ready going
              have runs : Together skipRun skipRun
                  { start with context := start.context.skipLines }
                  { other with context := other.context.skipLines } _ :=
                together_skip_run trees ready solid begins
              apply runs.weaken
              rintro ⟨⟩ final ⟨⟩ last (paired | lost)
              · exact ih bound items paired.trees (coupling.readied paired.contexts)
              · exact concludes_of_lost lost
          · constructor
            intro all final whole last ran also
            rcases (ensures_ended_items (coupling.apartEnded apart)).met _ _ ran with ⟨rfl, rfl⟩
            exact .parted lenient trees apart rfl _ also

end Parser

end ModuleLang
