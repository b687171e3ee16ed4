import ModuleLang.Proofs.Typing.Jumps

/-!
Which statements are replaced. Inference puts another node in the place of a
definition only; all other statements stay where they were parsed, in bodies that
stay bodies.
-/

namespace ModuleLang.Inference

variable {limit : Position} {origin : SourceTree} {environment : Environment}

/-- A statement stays in its place, unless it is a definition. -/
def Kept (origin : SourceTree) (old now : NodeId) : Prop :=
  now = old ∨ ∃ type name, origin.arena.kind? old = some (.definition type name)

/-- The parsed bodies below some nodes hold the statements that they were parsed
with, up to definitions. -/
def BodiesKept (origin : SourceTree) (nodes : List NodeId) (state : InferenceState) : Prop :=
  ∀ body statements, Below origin nodes body →
    origin.arena.kind? body = some (.body statements) →
    ∃ found, state.kind? body = some (.body found) ∧ List.Forall₂ (Kept origin) statements found

/-- Nodes that stand side by side below one parent. -/
def Siblings (origin : SourceTree) (nodes : List NodeId) : Prop :=
  ∃ parent, nodes.Sublist (origin.arena.children parent)

theorem siblings_of_kind {node : NodeId} {kind : NodeKind NodeId} {nodes : List NodeId}
    (known : origin.arena.kind? node = some kind) (held : nodes.Sublist kind.children) :
    Siblings origin nodes :=
  ⟨node, by rw [Arena.children_of_kind known]; exact held⟩

namespace Siblings

variable {node id : NodeId} {rest : List NodeId}

theorem tail (siblings : Siblings origin (node :: rest)) : Siblings origin rest :=
  siblings.imp fun _ held => (List.sublist_cons_self node rest).trans held

/-- Nothing lies below two of them. -/
theorem apart (constructed : origin.Constructed limit) (siblings : Siblings origin (node :: rest))
    (inside : Below origin [node] id) : ¬ Below origin rest id := by
  rintro ⟨other, member, below⟩
  obtain ⟨parent, held⟩ := siblings
  have distinct := held.nodup (constructed.forest.distinct parent)
  have same := constructed.forest.siblings_disjoint (held.subset List.mem_cons_self)
    (held.subset (List.mem_cons_of_mem _ member)) (below_singleton.mp inside) below
  exact (List.nodup_cons.mp distinct).1 (same ▸ member)

theorem bounded (constructed : origin.Constructed limit) (siblings : Siblings origin (node :: rest))
    (inside : Below origin (node :: rest) id) : id.index < origin.arena.size := by
  obtain ⟨parent, held⟩ := siblings
  refine below_bounded constructed (fun child member => ?_) inside
  have slot := held.subset member
  obtain ⟨kind, known, -⟩ := Arena.kind_of_child slot
  exact Nat.lt_trans (constructed.forest.below slot) (Arena.kind_bound known)

theorem head (siblings : Siblings origin (node :: rest)) : Siblings origin [node] :=
  siblings.imp fun _ held => (List.singleton_sublist.mpr (held.subset List.mem_cons_self))

end Siblings

/-- A body is not covered by its statements. -/
theorem body_apart (constructed : origin.Constructed limit) {node id : NodeId}
    {statements : List NodeId} {before visited : InferenceState}
    (known : origin.arena.kind? node = some (.body statements))
    (ready : Ready limit origin node before)
    (covered : Covered origin statements (opened before) visited id) : node ≠ id := by
  rintro rfl
  rcases covered with ⟨child, slot, below⟩ | ⟨new, -⟩
  · refine constructed.forest.parent_not_below ?_ below
    exact Arena.child_of_kind known slot
  · exact Nat.not_lt.mpr (Nat.le_trans ready.sound.size new) (Arena.kind_bound known)

section Bodies

variable {nodes rest other : List NodeId} {node : NodeId} {before middle after : InferenceState}

theorem BodiesKept.later (kept : BodiesKept origin nodes before)
    (leaves : Leaves (Below origin other) before after)
    (apart : ∀ id, Below origin nodes id → ¬ Below origin other id) :
    BodiesKept origin nodes after := by
  intro body statements inside known
  obtain ⟨found, held, places⟩ := kept body statements inside known
  have same := leaves.node body (Arena.kind_bound held) (apart body inside)
  exact ⟨found, (Arena.kind_of_node same).trans held, places⟩

theorem BodiesKept.cons (first : BodiesKept origin [node] after)
    (second : BodiesKept origin rest after) : BodiesKept origin (node :: rest) after := by
  intro body statements inside known
  obtain here | there := below_cons.mp inside
  · exact first body statements here known
  · exact second body statements there known

theorem BodiesKept.of_same_tree (kept : BodiesKept origin nodes before)
    (tree : after.tree = before.tree) : BodiesKept origin nodes after := by
  intro body statements inside known
  unfold InferenceState.kind?
  rw [tree]
  exact kept body statements inside known

/-- No body is below an expression, a type or a target. -/
theorem bodies_kept_of_inner (constructed : origin.Constructed limit) {category : Category}
    (inner : category.isInner = true) (admitted : origin.arena.Admitted category node)
    (state : InferenceState) : BodiesKept origin [node] state := by
  intro body statements inside known
  obtain ⟨category, inner, kind, found, admits⟩ :=
    Arena.inner_below constructed inner admitted (below_singleton.mp inside)
  cases found.symm.trans known
  cases NodeKind.not_outer_of_inner inner admits

/-- The bodies of a node that is none are those of its children. -/
theorem bodies_kept_of_children {kind : NodeKind NodeId}
    (known : origin.arena.kind? node = some kind) (other : ∀ statements, kind ≠ .body statements)
    (each : ∀ child ∈ kind.children, BodiesKept origin [child] after) :
    BodiesKept origin [node] after := by
  intro body statements inside found
  obtain same | ⟨child, slot, below⟩ := Arena.reachable_cases (below_singleton.mp inside)
  · subst same
    cases known.symm.trans found
    exact absurd rfl (other statements)
  · rw [Arena.children_of_kind known] at slot
    exact each child slot body statements (below_singleton.mpr below) found

theorem bodies_kept_of_leaf (constructed : origin.Constructed limit) {kind : NodeKind NodeId}
    (known : origin.arena.kind? node = some kind) (plain : kind.isNested = false)
    (statement : kind.isStatement = true) (state : InferenceState) :
    BodiesKept origin [node] state := by
  refine bodies_kept_of_children known ?_ fun child slot => ?_
  · rintro statements rfl
    cases plain
  · obtain ⟨category, slot⟩ := NodeKind.child_has_slot slot
    exact bodies_kept_of_inner constructed
      (NodeKind.inner_of_not_outer (NodeKind.not_outer_of_leaf plain statement) _ slot)
      (constructed.admitted known _ slot) state

end Bodies

/-- A body that is closed over what was found for its statements. -/
theorem bodies_kept_of_body (constructed : origin.Constructed limit) {node : NodeId}
    {statements found : List NodeId} {visited : InferenceState}
    (known : origin.arena.kind? node = some (.body statements)) (within : node.index < visited.size)
    (places : List.Forall₂ (Kept origin) statements found)
    (kept : BodiesKept origin statements visited) :
    BodiesKept origin [node] (closed visited node found) := by
  intro body inner inside innerKnown
  obtain same | ⟨child, slot, below⟩ := Arena.reachable_cases (below_singleton.mp inside)
  · subst same
    cases known.symm.trans innerKnown
    exact ⟨found, Arena.kind_set_kind within _, places⟩
  · have apart : node ≠ body := by
      rintro rfl
      exact constructed.forest.parent_not_below slot below
    rw [Arena.children_of_kind known] at slot
    obtain ⟨held, same, placed⟩ := kept body inner ⟨child, slot, below⟩ innerKnown
    refine ⟨held, Eq.trans (Arena.kind_of_node ?_) same, placed⟩
    exact (Arena.node_set_kind _ _ _ _).trans (if_neg apart)

/-- Only a definition is replaced. -/
theorem kept_of_leaf {node now : NodeId} {kind : NodeKind NodeId}
    {check : NodeId → Inference NodeId} {before after : InferenceState}
    (known : origin.arena.kind? node = some kind) (plain : kind.isNested = false)
    (statement : kind.isStatement = true) (ready : Ready limit origin node before)
    (ran : Ran (anyStatement environment check node) before now after) : Kept origin node now := by
  have stays : ∀ {value : Type} {action : Inference value},
      Ran (do let _ ← action; return node) before now after → Kept origin node now := by
    intro value action ran
    obtain ⟨_, _, _, rest⟩ := ran_bind.mp ran
    cases rest
    exact Or.inl rfl
  obtain ⟨_, _, got, ran⟩ := ran_bind.mp ran
  cases got
  rw [show before.tree.arena.kind? node = some kind from ready.kind.trans known] at ran
  cases kind with
  | body | condition | loop => cases plain
  | definition type name => exact Or.inr ⟨type, name, known⟩
  | assign | returnFrom | breakLoop | continueLoop | call | construct | unary => exact stays ran
  | _ => cases statement

theorem Walk.kept (constructed : origin.Constructed limit) {nodes found : List NodeId}
    {before after : InferenceState}
    (walk : Walk limit origin environment nodes before found after)
    (siblings : Siblings origin nodes) :
    List.Forall₂ (Kept origin) nodes found ∧ BodiesKept origin nodes after := by
  -- What is kept of the first statement is kept behind the others.
  have join : ∀ {node now : NodeId} {rest found : List NodeId} {middle after : InferenceState},
      Siblings origin (node :: rest) → Walk limit origin environment rest middle found after →
      Kept origin node now → BodiesKept origin [node] middle →
      (List.Forall₂ (Kept origin) rest found ∧ BodiesKept origin rest after) →
      List.Forall₂ (Kept origin) (node :: rest) (now :: found) ∧
        BodiesKept origin (node :: rest) after := by
    intro node now rest found middle after siblings later place bodies kept
    have first := bodies.later later.leaves fun id => siblings.apart constructed
    exact ⟨.cons place kept.1, first.cons kept.2⟩
  induction walk with
  | nil => exact ⟨.nil, fun body _ inside => by obtain ⟨_, none, -⟩ := inside; cases none⟩
  | leaf check known plain admits ready ran taken later ih =>
      exact join siblings later (kept_of_leaf known plain admits ready ran)
        (bodies_kept_of_leaf constructed known plain admits _) (ih siblings.tail)
  | @body node _ _ _ _ _ visited _ known ready inside work later inner ih =>
      refine join siblings later (Or.inl rfl) ?_ (ih siblings.tail)
      obtain ⟨places, bodies⟩ := inner (siblings_of_kind known (List.Sublist.refl _))
      refine bodies_kept_of_body constructed known ?_ places bodies
      exact Nat.lt_of_lt_of_le (Arena.kind_bound known)
        (Nat.le_trans ready.sound.size inside.leaves.size)
  | @condition node condition thenBody elseBody _ _ _ _ second third _ known ready asked askedWork
      thenWalk elseWalk work later thenPart elsePart ih =>
      refine join siblings later (Or.inl rfl) ?_ (ih siblings.tail)
      have blocks : Siblings origin (thenBody :: elseBody.toList) :=
        siblings_of_kind known (List.sublist_cons_self _ _)
      have first : BodiesKept origin [thenBody] third :=
        (thenPart (siblings_of_kind known (by simp [NodeKind.children]))).2.later elseWalk.leaves
          fun id => blocks.apart constructed
      have second := (elsePart blocks.tail).2
      refine bodies_kept_of_children known (by simp) fun child slot => ?_
      rw [NodeKind.children, List.mem_cons, List.mem_cons] at slot
      obtain rfl | rfl | slot := slot
      · exact bodies_kept_of_inner constructed (show Category.expression.isInner = true from rfl)
          (constructed.admitted known (.expression, child) (by simp [NodeKind.slots])) _
      · exact first
      · intro body statements inside
        exact second body statements ⟨child, slot, below_singleton.mp inside⟩
  | @loop node condition block _ _ _ _ second _ known ready asked askedWork inside work later inner
      ih =>
      refine join siblings later (Or.inl rfl) ?_ (ih siblings.tail)
      have kept : BodiesKept origin [block] (shallower second) :=
        (inner (siblings_of_kind known (by simp [NodeKind.children]))).2.of_same_tree rfl
      refine bodies_kept_of_children known (by simp) fun child slot => ?_
      rw [NodeKind.children, List.mem_cons, List.mem_singleton] at slot
      obtain rfl | rfl := slot
      · exact bodies_kept_of_inner constructed (show Category.expression.isInner = true from rfl)
          (constructed.admitted known (.expression, child) (by simp [NodeKind.slots])) _
      · exact kept

section Modules

variable {functions left : List NodeId} {signed before after : InferenceState}

/-- Only bodies of functions that are left are changed. -/
theorem Rounds.leaves (rounds : Rounds limit origin environment functions signed left before after) :
    Leaves (Below origin (allBlocks origin left)) (outside before) (outside after) := by
  induction rounds with
  | nil => exact .refl _ _
  | @next function _ _ _ block _ rest before declared after _ known advanced entry noted ready walk
      work later ih =>
      have all : allBlocks origin (function :: rest) = block :: allBlocks origin rest := by
        simp [allBlocks, Arena.blocks, known]
      have tree : declared.tree = before.tree := noted.tree
      have first : Passed limit origin [block] (outside before) (outside after) :=
        work.outside tree noted.leaves.diagnostics fun _ _ => False.elim
      rw [all]
      exact first.leaves.cons ih

theorem Rounds.nodes (rounds : Rounds limit origin environment functions signed left before after) :
    before.size ≤ after.size ∧ ∀ id, id.index < before.size →
      ¬ Below origin (allBlocks origin left) id →
      after.tree.arena.node? id = before.tree.arena.node? id :=
  ⟨rounds.leaves.size, rounds.leaves.node⟩

/-- Nothing lies below the bodies of two functions. -/
theorem Course.blocks_apart {fileName : String} {host : Host} {root function block : NodeId}
    {modules imports passed : List NodeId} {signatures : List Signature}
    (course : Course limit origin fileName host root modules imports functions signatures signed
      after) (whole : passed ++ function :: left = functions)
    (isBlock : origin.arena.blocks function = [block]) {id : NodeId}
    (inside : Below origin [block] id) : ¬ Below origin (allBlocks origin left) id := by
  rintro ⟨other, member, below⟩
  obtain ⟨later, laterMember, isOther⟩ := List.mem_flatMap.mp member
  obtain ⟨same, -⟩ := course.prepared.cut (show function ∈ functions by simp [← whole])
    (show later ∈ functions by simp [← whole, laterMember])
    (Arena.block_is_child (show block ∈ origin.arena.blocks function by simp [isBlock]))
    (Arena.block_is_child isOther) (below_singleton.mp inside) below
  have distinct := course.prepared.distinct
  rw [← whole] at distinct
  have rest := (List.nodup_append.mp distinct).2.1
  exact (List.nodup_cons.mp rest).1 (same ▸ laterMember)

theorem Course.bodies_kept {fileName : String} {host : Host} {root : NodeId}
    {modules imports : List NodeId} {signatures : List Signature}
    (course : Course limit origin fileName host root modules imports functions signatures signed
      after) :
    BodiesKept origin (allBlocks origin functions) after := by
  have constructed := course.prepared.constructed
  have kept : ∀ {left before final},
      Rounds limit origin ⟨fileName, host, signatures⟩ functions signed left before final →
      BodiesKept origin (allBlocks origin left) final := by
    intro left before final rounds
    induction rounds with
    | nil => exact fun body _ inside => by obtain ⟨_, none, -⟩ := inside; cases none
    | @next function _ _ _ block _ rest _ _ after _ known advanced entry noted ready walk work later
        ih =>
        have isBlock : origin.arena.blocks function = [block] := by simp [Arena.blocks, known]
        have all : allBlocks origin (function :: rest) = block :: allBlocks origin rest := by
          simp [allBlocks, isBlock]
        have first := (walk.kept constructed
          (siblings_of_kind known (by simp [NodeKind.children]))).2
        rw [all]
        refine BodiesKept.cons (fun body statements inside bodyKnown => ?_) ih
        obtain ⟨found, held, places⟩ := first body statements inside bodyKnown
        have same := later.nodes.2 body (Arena.kind_bound held)
          (course.blocks_apart advanced.whole isBlock inside)
        exact ⟨found, (Arena.kind_of_node same).trans held, places⟩
  exact kept course.rounds

end Modules

end ModuleLang.Inference
