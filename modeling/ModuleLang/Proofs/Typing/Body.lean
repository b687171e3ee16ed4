import ModuleLang.Proofs.Typing.Statement

/-!
Bodies, and the statements that hold them. As with expressions the checking of
inner statements is a parameter. A body is pointed at the nodes that take the
places of its statements once all of them are worked on.
-/

namespace ModuleLang.Inference

variable {limit : Position} {origin : SourceTree} {results : Option Ty → Prop}
  {environment : Environment}

/-- The checking of statements with a number below `bound`. -/
def Checks (limit : Position) (origin : SourceTree) (results : Option Ty → Prop) (bound : Nat)
    (check : NodeId → Inference NodeId) : Prop :=
  ∀ node state, node.index < bound → origin.arena.Admitted .statement node →
    Sound limit origin state → Untouched origin (Below origin [node]) state →
    (∀ result, results result → result = state.result) →
    Yields (check node) state fun now final => Taken limit origin results node state final now

section Rules

variable {check : NodeId → Inference NodeId} {node child : NodeId} {kind : NodeKind NodeId}
  {done rest : List NodeId} {before state after : InferenceState}

/-- Nodes that take the places of the statements that are worked on. -/
def Placed (origin : SourceTree) (done : List NodeId) (before state : InferenceState)
    (found : List NodeId) : Prop :=
  List.Forall₂ (fun old now => SourceTree.Stands origin state.tree .statement old now ∧
    Covered origin done before state now ∧ state.span? now = origin.spans.span? old) done found

/-- One more statement is worked on. -/
theorem Placed.next {found : List NodeId} {now : NodeId}
    (visits : Visits limit origin results node kind done (child :: rest) before state)
    (placed : Placed origin done before state found)
    (taken : Taken limit origin results child state after now) :
    Placed origin (done ++ [child]) before after (found ++ [now]) := by
  have leaves := taken.work.leaves
  have grows := visits.work.leaves.size
  refine List.rel_append (placed.imp ?_) (.cons ?_ .nil)
  · rintro old now ⟨stands, covered, place⟩
    have bound := visits.work.settled.bounded covered
    have apart : ¬ Below origin [child] now := by
      obtain below | ⟨lower, -⟩ := covered
      · exact visits.next_apart below
      · intro below
        have known := below_bounded visits.constructed
          (by simpa using visits.child_bound (show child ∈ done ++ child :: rest by simp)) below
        have size := visits.start.size
        omega
    refine ⟨SourceTree.stands_of_same (Arena.kind_of_node (leaves.node now bound apart)) stands,
      ?_, ?_⟩
    · obtain below | ⟨lower, upper⟩ := covered
      · exact Or.inl (Worked.below_append.mpr (Or.inl below))
      · exact Or.inr ⟨lower, Nat.lt_of_lt_of_le upper leaves.size⟩
    · rw [leaves.span now bound apart]
      exact place
  · refine ⟨taken.stands, ?_, taken.place⟩
    obtain below | ⟨lower, upper⟩ := taken.covered
    · exact Or.inl (Worked.below_append.mpr (Or.inr below))
    · exact Or.inr ⟨Nat.le_trans grows lower, upper⟩

theorem yields_visit_statements {bound : Nat} {statements : List NodeId}
    (checks : Checks limit origin results bound check) (within : node.index ≤ bound)
    (visits : Visits limit origin results node (.body statements) [] statements before state)
    (only : ∀ result, results result → result = before.result) :
    Yields (statements.mapM check) state fun found final =>
      Visits limit origin results node (.body statements) statements [] before final ∧
      Placed origin statements before final found := by
  refine (yields_mapM check (fun found left current => ∃ passed, passed ++ left = statements ∧
    Visits limit origin results node (.body statements) passed left before current ∧
    Placed origin passed before current found) ?_ statements [] state
    ⟨[], rfl, visits, .nil⟩).weaken ?_
  · rintro found head tail current ⟨passed, whole, visits, placed⟩
    have slot : (Category.statement, head) ∈ (NodeKind.body statements).slots := by
      simp [NodeKind.slots, ← whole]
    have admitted := visits.constructed.admitted visits.found _ slot
    have below := visits.below_index (List.mem_append_right passed (List.mem_cons_self (l := tail)))
    refine (checks head current (by omega) admitted visits.sound visits.next_untouched ?_).weaken ?_
    · rw [visits.work.leaves.result]
      exact only
    · rintro now final taken
      refine ⟨passed ++ [head], ?_, visits.next taken.work, placed.next visits taken⟩
      rw [List.append_assoc, List.singleton_append]
      exact whole
  · rintro found final ⟨passed, whole, visits, placed⟩
    rw [List.append_nil] at whole
    subst whole
    exact ⟨visits, placed⟩

/-- A body that is pointed at the nodes that were found for its statements. -/
theorem judged_body {statements found : List NodeId}
    (visits : Visits limit origin results node (.body statements) statements [] before state)
    (placed : Placed origin statements before state found) (own : Option Ty) :
    Judged limit origin results node (.body statements) own before
      (state.withArena (state.tree.arena.setKind node (.body found))) := by
  have bound : node.index < state.size :=
    Nat.lt_of_lt_of_le (Arena.kind_bound visits.found) visits.sound.size
  have rewrites := rewrites_set_kind visits.sound visits.work.settled visits.node_uncovered
    (.body found)
  have kinds : ∀ id, id ≠ node →
      (state.tree.arena.setKind node (.body found)).kind? id = state.tree.arena.kind? id := by
    intro id apart
    refine Arena.kind_of_node ?_
    rw [Arena.node_set_kind, if_neg (Ne.symm apart)]
  have covered : ∀ now ∈ found, Covered origin statements before state now ∧
      ∃ old ∈ statements, state.span? now = origin.spans.span? old := by
    intro now member
    obtain ⟨index, inside, rfl⟩ := List.getElem_of_mem member
    have partner := placed.length_eq ▸ inside
    obtain ⟨-, covered, place⟩ := List.Forall₂.get placed partner inside
    exact ⟨covered, _, List.getElem_mem partner, place⟩
  refine ⟨state, .body found, visits, rewrites, ⟨Arena.kind_set_kind bound _, ?_, ?_, ?_, ?_⟩, ?_⟩
  · refine .parsed visits.found (.body (placed.imp ?_)) nofun
    rintro old now ⟨stands, inside, -⟩
    have apart : now ≠ node := by
      rintro rfl
      exact visits.node_uncovered inside
    exact SourceTree.stands_of_same (kinds now apart) stands
  · apply visits.joined rewrites.spans
    intro now member
    obtain ⟨-, old, inside, place⟩ := covered now member
    exact ⟨old, inside, place.trans (visits.work.spans old inside).symm⟩
  · intro now member
    obtain ⟨-, old, inside, place⟩ := covered now member
    have same : state.span? now = state.span? old :=
      place.trans (visits.work.spans old inside).symm
    change (state.span? now).isSome
    rw [same]
    exact visits.child_spanned inside
  · exact fun _ => trivial
  · exact fun now member => Or.inl (covered now member).1

theorem yields_body {bound : Nat} (constructed : origin.Constructed limit)
    (checks : Checks limit origin results bound check) (within : node.index ≤ bound)
    (admitted : origin.arena.Admitted .body node) (sound : Sound limit origin state)
    (untouched : Untouched origin (Below origin [node]) state)
    (only : ∀ result, results result → result = state.result) :
    Yields (body check node) state fun _ final =>
      Worked limit origin results [node] state final := by
  obtain ⟨kind, found, admits⟩ := admitted
  cases kind with
  | body statements =>
      have visits : Visits limit origin results node (.body statements) [] statements state state :=
        .begin constructed found sound untouched
      unfold body
      rw [yields_bind, yields_kind, visits.node_same.1]
      simp only
      rw [yields_bind, yields_on_scopes]
      have pushed : Noted limit origin (fun _ => False) state
          { state with scopes := state.scopes.push } :=
        noted_of_scopes sound rfl rfl rfl fun _ member => Or.inl (Scopes.nodes_push member)
      rw [yields_bind]
      refine (yields_visit_statements checks within (visits.noted pushed) only).weaken ?_
      rintro checked visited ⟨visits, placed⟩
      rw [yields_bind, yields_set_kind, yields_on_scopes]
      have judged := judged_body visits placed (state.type? node)
      have popped : Noted limit origin (fun id => id = node)
          (visited.withArena (visited.tree.arena.setKind node (.body checked)))
          { visited.withArena (visited.tree.arena.setKind node (.body checked)) with
            scopes := visited.scopes.pop } :=
        noted_of_scopes judged.sound rfl rfl rfl fun _ member => Or.inl (Scopes.nodes_pop member)
      exact worked_of_judged ((judged_body visits placed _).noted popped)
  | _ => cases admits

theorem yields_visit_body {bound : Nat} (checks : Checks limit origin results bound check)
    (within : node.index ≤ bound)
    (visits : Visits limit origin results node kind done (child :: rest) before state)
    (slot : (Category.body, child) ∈ kind.slots)
    (only : ∀ result, results result → result = before.result) :
    Yields (body check child) state fun _ final =>
      Visits limit origin results node kind (done ++ [child]) rest before final ∧
      (∀ earlier ∈ done, final.type? earlier = state.type? earlier) ∧
      (final.Clean → state.Clean) := by
  have below := visits.below_index (List.mem_append_right done (List.mem_cons_self (l := rest)))
  have admitted := visits.constructed.admitted visits.found _ slot
  have inside : child.index ≤ bound := by omega
  refine (yields_body visits.constructed checks inside admitted visits.sound
    visits.next_untouched ?_).weaken ?_
  · rw [visits.work.leaves.result]
    exact only
  · rintro _ final work
    exact ⟨visits.next work, visits.types_kept work, work.leaves.clean⟩

theorem yields_visit_predicate
    (visits : Visits limit origin results node kind done (child :: rest) before state)
    (slot : (Category.expression, child) ∈ kind.slots) :
    Yields (predicate environment child) state fun _ final =>
      Visits limit origin results node kind (done ++ [child]) rest before final ∧
      (final.Clean → IfKnown (final.type? child) (· = .bool)) := by
  have admitted := visits.constructed.admitted visits.found _ slot
  refine (yields_predicate results visits.constructed admitted visits.sound
    visits.next_untouched).weaken ?_
  rintro _ final ⟨work, known⟩
  exact ⟨visits.next work, known⟩

theorem yields_condition {bound : Nat} {condition thenBody : NodeId} {elseBody : Option NodeId}
    (checks : Checks limit origin results bound check) (within : node.index ≤ bound)
    (visits : Visits limit origin results node (.condition condition thenBody elseBody) []
      (condition :: thenBody :: elseBody.toList) before state)
    (only : ∀ result, results result → result = before.result) :
    Yields (do
      predicate environment condition
      body check thenBody
      elseBody.forM (body check)
      return node) state fun now final =>
      now = node ∧ Worked limit origin results [node] before final := by
  rw [yields_bind]
  refine (yields_visit_predicate visits (by simp [NodeKind.slots])).weaken ?_
  rintro _ first ⟨visits, known⟩
  rw [yields_bind]
  refine (yields_visit_body checks within visits (by simp [NodeKind.slots]) only).weaken ?_
  rintro _ second ⟨visits, kept, cleaner⟩
  have known : second.Clean → IfKnown (second.type? condition) (· = .bool) := by
    intro clean
    rw [kept condition (by simp)]
    exact known (cleaner clean)
  cases elseBody with
  | none => exact ⟨rfl, worked_of_judged (judged_plain visits known)⟩
  | some block =>
      rw [yields_bind]
      refine (yields_visit_body checks within visits (by simp [NodeKind.slots]) only).weaken ?_
      rintro _ third ⟨visits, kept, cleaner⟩
      refine ⟨rfl, worked_of_judged (judged_plain visits fun clean => ?_)⟩
      change IfKnown (third.type? condition) (· = .bool)
      rw [kept condition (by simp)]
      exact known (cleaner clean)

theorem yields_while_loop {bound : Nat} {condition block : NodeId}
    (checks : Checks limit origin results bound check) (within : node.index ≤ bound)
    (visits : Visits limit origin results node (.loop condition block) [] [condition, block]
      before state)
    (only : ∀ result, results result → result = before.result) :
    Yields (whileLoop environment check condition block) state fun _ final =>
      Worked limit origin results [node] before final := by
  unfold whileLoop
  rw [yields_bind]
  refine (yields_visit_predicate visits (by simp [NodeKind.slots])).weaken ?_
  rintro _ first ⟨visits, known⟩
  rw [yields_bind, yields_modify, yields_bind]
  have deeper : Noted limit origin (fun _ => False) first
      { first with loopDepth := first.loopDepth + 1 } :=
    noted_of_scopes visits.sound rfl rfl rfl fun _ member => Or.inl member
  refine (yields_visit_body checks within (visits.noted deeper) (by simp [NodeKind.slots])
    only).weaken ?_
  rintro _ second ⟨visits, kept, cleaner⟩
  rw [yields_modify]
  have back : Noted limit origin (fun id => id = node) second
      { second with loopDepth := second.loopDepth - 1 } :=
    noted_of_scopes visits.sound rfl rfl rfl fun _ member => Or.inl member
  refine worked_of_judged ((judged_plain visits fun clean => ?_).noted back)
  change IfKnown (second.type? condition) (· = .bool)
  rw [kept condition (by simp)]
  exact known (cleaner clean)

theorem yields_statement (constructed : origin.Constructed limit)
    (checks : Checks limit origin results node.index check)
    (admitted : origin.arena.Admitted .statement node) (sound : Sound limit origin state)
    (untouched : Untouched origin (Below origin [node]) state)
    (only : ∀ result, results result → result = state.result) :
    Yields (anyStatement environment check node) state fun now final =>
      Taken limit origin results node state final now := by
  obtain ⟨kind, found, admits⟩ := admitted
  have visits : Visits limit origin results node kind [] kind.children state state :=
    .begin constructed found sound untouched
  have evaluated : kind.isExpression = true → Yields (do
      let _ ← expression environment node
      return node) state fun now final => Taken limit origin results node state final now := by
    intro isExpression
    rw [yields_bind]
    exact (yields_expression results constructed ⟨kind, found, isExpression⟩ sound
      untouched).weaken fun _ final worked => taken_self worked.1
  unfold anyStatement
  rw [yields_bind, yields_kind, visits.node_same.1]
  cases kind with
  | definition type name =>
      cases type with
      | none => cases admits
      | some written => exact yields_bare_definition visits
  | assign operator target value =>
      simp only
      rw [yields_bind]
      exact (yields_assignment visits).weaken fun _ final => taken_self
  | condition condition thenBody elseBody =>
      refine (yields_condition checks (Nat.le_refl _) visits only).weaken ?_
      rintro now final ⟨rfl, work⟩
      exact taken_self work
  | loop condition block =>
      simp only
      rw [yields_bind]
      exact (yields_while_loop checks (Nat.le_refl _) visits only).weaken fun _ final => taken_self
  | returnFrom value =>
      simp only
      rw [yields_bind]
      exact (judged_return visits only).weaken fun _ final judged =>
        taken_self (worked_of_judged (judged _))
  | breakLoop =>
      simp only
      rw [yields_bind]
      exact (judged_jump visits fun _ _ => trivial).weaken fun _ final judged =>
        taken_self (worked_of_judged (judged _))
  | continueLoop =>
      simp only
      rw [yields_bind]
      exact (judged_jump visits fun _ _ => trivial).weaken fun _ final judged =>
        taken_self (worked_of_judged (judged _))
  | body statements =>
      simp only
      rw [yields_bind]
      exact (yields_body constructed checks (Nat.le_refl _) ⟨_, found, rfl⟩ sound untouched
        only).weaken fun _ final => taken_self
  | call name arguments => exact evaluated rfl
  | construct type arguments => exact evaluated rfl
  | unary operator operand => exact evaluated rfl
  | _ => cases admits

end Rules

theorem checks_within (constructed : origin.Constructed limit) (budget : Nat) :
    Checks limit origin results budget (statementWithin environment budget) := by
  induction budget with
  | zero => exact fun node _ bound => absurd bound (Nat.not_lt_zero _)
  | succ budget ih =>
      intro node state bound admitted sound untouched only
      have checks : Checks limit origin results node.index (statementWithin environment budget) :=
        fun child state below => ih child state (by omega)
      exact yields_statement constructed checks admitted sound untouched only

theorem yields_whole_body {node : NodeId} {state : InferenceState}
    (constructed : origin.Constructed limit) (admitted : origin.arena.Admitted .body node)
    (sound : Sound limit origin state) (untouched : Untouched origin (Below origin [node]) state)
    (only : ∀ result, results result → result = state.result) :
    Yields (wholeBody environment node) state fun _ final =>
      Worked limit origin results [node] state final := by
  unfold wholeBody
  rw [yields_bind, yields_get]
  obtain ⟨kind, found, -⟩ := id admitted
  have bound := Arena.kind_bound found
  have size : origin.arena.size ≤ state.tree.arena.size := sound.size
  have within : node.index ≤ state.tree.arena.size + 1 := by omega
  exact yields_body constructed (checks_within constructed _) within admitted sound untouched only

end ModuleLang.Inference
