import ModuleLang.Proofs.Typing.Places
import ModuleLang.Proofs.Typing.Scoping

/-!
Scopes of whole bodies. Every body opens a frame over the visible names and leaves
none behind, so the way of inference through statements without an error is the
way of their scopes in the completed tree.
-/

namespace ModuleLang

theorem Scopes.visible_pop {scopes : Scopes} {parent : Frame} {outer : List Frame}
    (same : scopes.outer = parent :: outer) :
    scopes.pop.top.visible = parent.visible ∧ scopes.pop.outer = outer := by
  unfold pop
  rw [same]
  exact ⟨rfl, rfl⟩

namespace Inference

variable {limit : Position} {origin tree : SourceTree} {environment : Environment}

/-- Frames with the same visible names. -/
theorem binders_of_visible {first second : Scopes} (same : first.top.visible = second.top.visible) :
    first.binders = second.binders := by
  unfold Scopes.binders
  rw [same]

theorem Backed.of_visible {first second : Scopes} (backed : Backed tree first)
    (same : second.top.visible = first.top.visible) : Backed tree second := by
  intro name binding seen
  unfold Scopes.lookup at seen
  rw [same] at seen
  exact backed name binding seen

/-- The tree has what the work on some nodes left behind. -/
def Retains (origin tree : SourceTree) (nodes : List NodeId) (before after : InferenceState) :
    Prop :=
  ∀ id, Covered origin nodes before after id → tree.arena.node? id = after.tree.arena.node? id

/-- What is true of the way through statements without an error. -/
structure Ruled (origin tree : SourceTree) (nodes found : List NodeId)
    (before after : InferenceState) : Prop where
  fresh : after.duplicates = []
  outer : after.scopes.outer = before.scopes.outer
  backed : Backed tree after.scopes
  ruled : tree.arena.Scoped before.scopes.binders found after.scopes.binders
  /-- Statements that hold others leave no name behind. -/
  restores : (∀ node ∈ nodes, ∃ kind, origin.arena.kind? node = some kind ∧ kind.isNested = true) →
    after.scopes.top.visible = before.scopes.top.visible

section Parts

variable {node now : NodeId} {rest found : List NodeId} {before middle after : InferenceState}

/-- What the first statement left behind is not changed by the others. -/
theorem Retains.head (constructed : origin.Constructed limit)
    (siblings : Siblings origin (node :: rest))
    (retains : Retains origin tree (node :: rest) before after)
    (start : origin.arena.size ≤ before.size) (step : Leaves (Below origin [node]) before middle)
    (later : Leaves (Below origin rest) middle after) :
    Retains origin tree [node] before middle := by
  have known : ∀ {id}, Below origin rest id → id.index < before.size := fun inside =>
    Nat.lt_of_lt_of_le (siblings.bounded constructed (below_cons.mpr (Or.inr inside))) start
  intro id covered
  obtain inside | ⟨new, bound⟩ := covered
  · have old := Nat.lt_of_lt_of_le (siblings.bounded constructed (below_cons.mpr (Or.inl inside)))
      (Nat.le_trans start step.size)
    exact (retains id (Or.inl (below_cons.mpr (Or.inl inside)))).trans
      (later.node id old (siblings.apart constructed inside))
  · refine (retains id (Or.inr ⟨new, Nat.lt_of_lt_of_le bound later.size⟩)).trans
      (later.node id bound fun inside => ?_)
    exact Nat.not_lt.mpr new (known inside)

theorem Retains.tail (retains : Retains origin tree (node :: rest) before after)
    (step : Leaves (Below origin [node]) before middle) : Retains origin tree rest middle after := by
  rintro id (inside | ⟨new, bound⟩)
  · exact retains id (Or.inl (below_cons.mpr (Or.inr inside)))
  · exact retains id (Or.inr ⟨Nat.le_trans step.size new, bound⟩)

/-- The parts of a statement are covered with it. -/
theorem Retains.part {nodes : List NodeId} {start final : InferenceState}
    (retains : Retains origin tree [node] before after)
    (below : ∀ id, Below origin nodes id → Below origin [node] id)
    (lower : before.size ≤ start.size) (upper : final.size ≤ after.size)
    (same : ∀ id, Covered origin nodes start final id →
      after.tree.arena.node? id = final.tree.arena.node? id) :
    Retains origin tree nodes start final := by
  intro id covered
  refine (retains id ?_).trans (same id covered)
  obtain inside | ⟨new, bound⟩ := covered
  · exact Or.inl (below id inside)
  · exact Or.inr ⟨Nat.le_trans lower new, Nat.lt_of_lt_of_le bound upper⟩

theorem Ruled.cons (step : Stepped tree now before middle)
    (keeps : ∀ kind, origin.arena.kind? node = some kind → kind.isNested = true →
      middle.scopes.top.visible = before.scopes.top.visible)
    (later : Ruled origin tree rest found middle after) :
    Ruled origin tree (node :: rest) (now :: found) before after where
  fresh := later.fresh
  outer := later.outer.trans step.outer
  backed := later.backed
  ruled := step.ruled _ _ later.ruled
  restores nested := by
    obtain ⟨kind, known, holds⟩ := nested node List.mem_cons_self
    rw [later.restores fun other member => nested other (List.mem_cons_of_mem _ member)]
    exact keeps kind known holds

end Parts

/-- What is known of the completed tree. -/
structure Completed (limit : Position) (origin tree : SourceTree) : Prop where
  constructed : origin.Constructed limit
  traced : ∀ {id kind}, tree.arena.kind? id = some kind → SourceTree.Traced origin tree id kind
  grown : origin.arena.size ≤ tree.arena.size

/-- A condition that was checked without an error. -/
theorem resolves_predicate {condition place : NodeId} {before after : InferenceState}
    {result : Unit} (completed : Completed limit origin tree) (backed : Backed tree before.scopes)
    (admitted : origin.arena.Admitted .expression condition)
    (ready : Ready limit origin condition before)
    (ran : Ran (predicate environment condition) before result after) (clean : after.Clean)
    (retains : Retains origin tree [condition] before after)
    (stands : SourceTree.Stands origin tree .expression condition place) :
    tree.arena.Resolves before.scopes.binders place := by
  obtain ⟨constructed, traced, grown⟩ := completed
  obtain ⟨_, middle, inferred, mild⟩ := ran_predicate ran
  have evaluated := evaluated_of_ran constructed admitted ready inferred
  refine resolves_named constructed traced grown backed rfl admitted stands
    (evaluated.named (mild.clean clean)) fun id below => ?_
  have inside := below_singleton.mpr below
  rw [Arena.type_of_node (retains id (Or.inl inside))]
  have bound := below_bounded constructed
    (by simpa using Arena.kind_bound admitted.choose_spec.1) inside
  exact mild.types id (Nat.lt_of_lt_of_le bound (Nat.le_trans ready.sound.size evaluated.leaves.size))

section Nested

variable {node : NodeId} {before after : InferenceState}

/-- A body without an error. -/
theorem stepped_body {statements inner : List NodeId} {visited : InferenceState}
    (backed : Backed tree before.scopes)
    (held : tree.arena.kind? node = some (.body inner))
    (ruled : Ruled origin tree statements inner (opened before) visited) :
    Stepped tree node before (closed visited node inner) ∧
      (closed visited node inner).scopes.top.visible = before.scopes.top.visible := by
  have outer : visited.scopes.outer = before.scopes.top :: before.scopes.outer := ruled.outer
  obtain ⟨visible, rest⟩ := Scopes.visible_pop outer
  refine ⟨⟨ruled.fresh, rest, backed.of_visible visible, fun others last later => ?_⟩, visible⟩
  rw [binders_of_visible (show (closed visited node inner).scopes.top.visible = _ from visible)]
    at later
  exact .body held ruled.ruled later

/-- A node for a body holds statements. -/
theorem nested_of_body {block : NodeId} (admitted : origin.arena.Admitted .body block) :
    ∃ kind, origin.arena.kind? block = some kind ∧ kind.isNested = true := by
  obtain ⟨kind, known, admits⟩ := admitted
  cases kind with
  | body statements => exact ⟨_, known, rfl⟩
  | _ => cases admits

/-- A condition without an error. -/
theorem stepped_condition {condition thenBody : NodeId} {elseBody : Option NodeId}
    {first second : InferenceState} (completed : Completed limit origin tree)
    (known : origin.arena.kind? node = some (.condition condition thenBody elseBody))
    (backed : Backed tree before.scopes) (same : Undeclared before first)
    (decides : ∀ place, SourceTree.Stands origin tree .expression condition place →
      tree.arena.Resolves before.scopes.binders place)
    (taken : Ruled origin tree [thenBody] [thenBody] first second)
    (other : Ruled origin tree elseBody.toList elseBody.toList second after) :
    Stepped tree node before after ∧ after.scopes.top.visible = before.scopes.top.visible := by
  have body : ∀ block, block ∈ thenBody :: elseBody.toList →
      ∃ kind, origin.arena.kind? block = some kind ∧ kind.isNested = true := by
    intro block member
    refine nested_of_body (completed.constructed.admitted known (.body, block) ?_)
    obtain rfl | member := List.mem_cons.mp member
    · simp [NodeKind.slots]
    · rw [Option.mem_toList] at member
      simp [NodeKind.slots, Option.mem_def.mp member]
  have start : first.scopes.top.visible = before.scopes.top.visible := by rw [same.scopes]
  have middle : second.scopes.top.visible = before.scopes.top.visible :=
    (taken.restores fun block member => body block (by simp_all)).trans start
  have ends : after.scopes.top.visible = before.scopes.top.visible :=
    (other.restores fun block member => body block (List.mem_cons_of_mem _ member)).trans middle
  refine ⟨⟨other.fresh, ?_, backed.of_visible ends, fun rest last later => ?_⟩, ends⟩
  · rw [other.outer, taken.outer, same.scopes]
  · obtain ⟨image, found, alike⟩ :=
      SourceTree.image_of_parsed completed.traced completed.grown known
    cases alike with
    | condition asked block others =>
        cases SourceTree.same_of_stands_body block
        have inside := taken.ruled
        have beside := other.ruled
        rw [binders_of_visible start] at inside
        rw [binders_of_visible middle] at beside
        rw [binders_of_visible ends] at later
        cases others with
        | none => exact .condition found (decides _ asked) inside beside later
        | some stands =>
            cases SourceTree.same_of_stands_body stands
            exact .condition found (decides _ asked) inside beside later

/-- A loop without an error. -/
theorem stepped_loop {condition block : NodeId} {first second : InferenceState}
    (completed : Completed limit origin tree)
    (known : origin.arena.kind? node = some (.loop condition block))
    (backed : Backed tree before.scopes) (same : Undeclared before first)
    (decides : ∀ place, SourceTree.Stands origin tree .expression condition place →
      tree.arena.Resolves before.scopes.binders place)
    (inside : Ruled origin tree [block] [block] (deeper first) second) :
    Stepped tree node before (shallower second) ∧
      (shallower second).scopes.top.visible = before.scopes.top.visible := by
  have start : (deeper first).scopes.top.visible = before.scopes.top.visible := by
    change first.scopes.top.visible = _
    rw [same.scopes]
  have ends : (shallower second).scopes.top.visible = before.scopes.top.visible := by
    refine (inside.restores fun node member => ?_).trans start
    rw [List.mem_singleton] at member
    subst member
    exact nested_of_body
      (completed.constructed.admitted known (.body, node) (by simp [NodeKind.slots]))
  refine ⟨⟨inside.fresh, ?_, backed.of_visible ends, fun rest last later => ?_⟩, ends⟩
  · exact inside.outer.trans (congrArg Scopes.outer same.scopes)
  · obtain ⟨image, found, alike⟩ :=
      SourceTree.image_of_parsed completed.traced completed.grown known
    cases alike with
    | loop asked held =>
        cases SourceTree.same_of_stands_body held
        have inner := inside.ruled
        rw [binders_of_visible start] at inner
        rw [binders_of_visible ends] at later
        exact .loop found (decides _ asked) inner later

end Nested

/-- Inference without an error goes through the scopes of the completed tree. -/
theorem Walk.ruled (completed : Completed limit origin tree) {nodes found : List NodeId}
    {before after : InferenceState}
    (walk : Walk limit origin environment nodes before found after)
    (siblings : Siblings origin nodes) (retains : Retains origin tree nodes before after)
    (fresh : before.duplicates = []) (backed : Backed tree before.scopes) (clean : after.Clean) :
    Ruled origin tree nodes found before after := by
  have constructed := completed.constructed
  induction walk with
  | nil => exact ⟨fresh, rfl, backed, .nil, fun _ => rfl⟩
  | @leaf node kind now _ _ before middle _ check known plain admits ready ran taken later ih =>
      have head := retains.head constructed siblings ready.sound.size taken.work.leaves later.leaves
      have passage : Passage limit origin tree node now before middle :=
        ⟨constructed, completed.traced, completed.grown, ready, taken, head, fresh, backed,
          later.leaves.clean clean⟩
      have step := passage.stepped known plain admits ran
      refine .cons step ?_ (ih siblings.tail (retains.tail taken.work.leaves) step.fresh step.backed
        clean)
      intro other same nested
      cases known.symm.trans same
      exact absurd nested (by simp [plain])
  | @body node statements inner _ _ before visited _ known ready inside work later innerIh ih =>
      have head := retains.head constructed siblings ready.sound.size work.leaves later.leaves
      have bound : node.index < visited.size := Nat.lt_of_lt_of_le (Arena.kind_bound known)
        (Nat.le_trans ready.sound.size inside.leaves.size)
      have part : Retains origin tree statements (opened before) visited := by
        refine head.part (fun id below => (below_children known).mpr (Or.inr below))
          (Nat.le_refl _) (Nat.le_of_eq (Arena.size_setKind _ _ _).symm) fun id covered => ?_
        exact (Arena.node_set_kind _ _ _ _).trans
          (if_neg (body_apart constructed known ready covered))
      have held : tree.arena.kind? node = some (.body inner) :=
        (Arena.kind_of_node (head node (Or.inl (below_singleton.mpr .refl)))).trans
          (Arena.kind_set_kind bound _)
      have ruled := innerIh (siblings_of_kind known (List.Sublist.refl _)) part fresh backed
        (later.leaves.clean clean)
      obtain ⟨step, visible⟩ := stepped_body backed held ruled
      exact .cons step (fun _ _ _ => visible) (ih siblings.tail (retains.tail work.leaves)
        step.fresh step.backed clean)
  | @condition node condition thenBody elseBody _ _ before first second third _ known ready asked
      askedWork thenWalk elseWalk work later thenIh elseIh ih =>
      have head := retains.head constructed siblings ready.sound.size work.leaves later.leaves
      have children : Siblings origin (condition :: thenBody :: elseBody.toList) :=
        siblings_of_kind known (List.Sublist.refl _)
      have parts : Retains origin tree (condition :: thenBody :: elseBody.toList) before third :=
        head.part (fun id below => (below_children known).mpr (Or.inr below)) (Nat.le_refl _)
          (Nat.le_refl _) fun _ _ => rfl
      have blocks := thenWalk.append elseWalk
      have blocksPart := parts.tail askedWork.leaves
      have start : origin.arena.size ≤ first.size :=
        Nat.le_trans ready.sound.size askedWork.leaves.size
      have same : Undeclared before first := undeclared_frame.keeps_predicate environment _ _ _ _ asked
      have clean := later.leaves.clean clean
      have decides : ∀ place, SourceTree.Stands origin tree .expression condition place →
          tree.arena.Resolves before.scopes.binders place := fun place =>
        resolves_predicate completed backed (constructed.admitted known (.expression, condition)
          (by simp [NodeKind.slots])) (ready.below known (by simp [NodeKind.children])) asked
          (blocks.leaves.clean clean)
          (parts.head constructed children ready.sound.size askedWork.leaves blocks.leaves)
      have taken := thenIh children.tail.head (blocksPart.head constructed children.tail start
        thenWalk.leaves elseWalk.leaves) (same.duplicates.trans fresh)
        (same.scopes ▸ backed) (elseWalk.leaves.clean clean)
      have other := elseIh children.tail.tail (blocksPart.tail thenWalk.leaves) taken.fresh
        taken.backed clean
      obtain ⟨step, visible⟩ := stepped_condition completed known backed same decides taken other
      exact .cons step (fun _ _ _ => visible) (ih siblings.tail (retains.tail work.leaves)
        step.fresh step.backed ‹_›)
  | @loop node condition block _ _ before first second _ known ready asked askedWork inside work
      later innerIh ih =>
      have head := retains.head constructed siblings ready.sound.size work.leaves later.leaves
      have children : Siblings origin [condition, block] :=
        siblings_of_kind known (List.Sublist.refl _)
      have parts : Retains origin tree [condition, block] before (shallower second) :=
        head.part (fun id below => (below_children known).mpr (Or.inr below)) (Nat.le_refl _)
          (Nat.le_refl _) fun _ _ => rfl
      have leaves : Leaves (Below origin [block]) first (shallower second) :=
        have walked := inside.leaves
        ⟨walked.size, walked.node, walked.span, walked.bound, walked.result, walked.diagnostics⟩
      have same : Undeclared before first := undeclared_frame.keeps_predicate environment _ _ _ _ asked
      have clean := later.leaves.clean clean
      have decides : ∀ place, SourceTree.Stands origin tree .expression condition place →
          tree.arena.Resolves before.scopes.binders place := fun place =>
        resolves_predicate completed backed (constructed.admitted known (.expression, condition)
          (by simp [NodeKind.slots])) (ready.below known (by simp [NodeKind.children])) asked
          (leaves.clean clean)
          (parts.head constructed children ready.sound.size askedWork.leaves leaves)
      have rest : Retains origin tree [block] first (shallower second) :=
        parts.tail askedWork.leaves
      have inner := innerIh children.tail (fun id covered => rest id covered)
        (same.duplicates.trans fresh) (same.scopes ▸ backed) clean
      obtain ⟨step, visible⟩ := stepped_loop completed known backed same decides inner
      exact .cons step (fun _ _ _ => visible) (ih siblings.tail (retains.tail work.leaves)
        step.fresh step.backed ‹_›)

end Inference

end ModuleLang
