import ModuleLang.Proofs.Typing.Grafting
import ModuleLang.Proofs.Typing.Places

/-!
Inference leaves a hierarchy. What is added while one statement is worked on has a
number between the sizes of the arena before and after, so a definition that was
put into one assignment is in no other.
-/

namespace ModuleLang.Inference

variable {limit : Position} {origin : SourceTree} {environment : Environment}

/-- The node was parsed as a plain assignment. -/
def Assigns (origin : SourceTree) (node : NodeId) : Prop :=
  ∃ target value, origin.arena.kind? node = some (.assign .assign target value)

theorem Assigns.bound {node : NodeId} {state : InferenceState} (assigns : Assigns origin node)
    (sound : Sound limit origin state) : node.index < state.size := by
  rcases assigns with ⟨target, value, known⟩
  exact Nat.lt_of_lt_of_le (Arena.kind_bound known) sound.size

/-- A node that was put into an assignment below some nodes. -/
structure PutInto (origin : SourceTree) (nodes : List NodeId) (state : InferenceState)
    (assignment added : NodeId) : Prop where
  inside : Below origin nodes assignment
  assigns : Assigns origin assignment
  slot : added ∈ state.tree.arena.children assignment
  new : origin.arena.size ≤ added.index

/-- What was put into the assignments below some nodes was added since the arena had
`lower` nodes, and is in one of them only. -/
structure Lone (origin : SourceTree) (nodes : List NodeId) (lower : Nat) (state : InferenceState) :
    Prop where
  since : ∀ assignment added, PutInto origin nodes state assignment added →
    lower ≤ added.index ∧ added.index < state.size
  single : ∀ first second added, PutInto origin nodes state first added →
    PutInto origin nodes state second added → first = second

section Lone

variable {nodes rest : List NodeId} {node : NodeId} {lower : Nat}
  {before middle after : InferenceState}

theorem lone_of_none (none : ∀ id, Below origin nodes id → ¬ Assigns origin id) :
    Lone origin nodes lower after where
  since _ _ put := absurd put.assigns (none _ put.inside)
  single _ _ _ put := absurd put.assigns (none _ put.inside)

theorem PutInto.back {other : List NodeId} {assignment added : NodeId}
    (put : PutInto origin other after assignment added) (inside : Below origin nodes assignment)
    (same : after.tree.arena.node? assignment = before.tree.arena.node? assignment) :
    PutInto origin nodes before assignment added := by
  refine ⟨inside, put.assigns, ?_, put.new⟩
  have slot := put.slot
  unfold Arena.children at *
  rw [Arena.kind_of_node same] at slot
  exact slot

theorem Lone.later (lone : Lone origin nodes lower before) (size : before.size ≤ after.size)
    (same : ∀ id, Below origin nodes id → Assigns origin id →
      after.tree.arena.node? id = before.tree.arena.node? id) : Lone origin nodes lower after where
  since assignment added put := by
    have known := lone.since _ _ (put.back put.inside (same _ put.inside put.assigns))
    exact ⟨known.1, Nat.lt_of_lt_of_le known.2 size⟩
  single first second added left right :=
    lone.single _ _ added (left.back left.inside (same _ left.inside left.assigns))
      (right.back right.inside (same _ right.inside right.assigns))

/-- What is added for the first nodes comes before what is added for the others. -/
theorem Lone.append {more : List NodeId} (first : Lone origin nodes lower middle)
    (second : Lone origin more middle.size after) (order : lower ≤ middle.size)
    (size : middle.size ≤ after.size)
    (same : ∀ id, Below origin nodes id → Assigns origin id →
      after.tree.arena.node? id = middle.tree.arena.node? id) :
    Lone origin (nodes ++ more) lower after := by
  have early : ∀ {assignment added}, PutInto origin (nodes ++ more) after assignment added →
      Below origin nodes assignment → PutInto origin nodes middle assignment added := by
    intro assignment added put inside
    exact put.back inside (same _ inside put.assigns)
  have late : ∀ {assignment added}, PutInto origin (nodes ++ more) after assignment added →
      Below origin more assignment → PutInto origin more after assignment added := by
    intro assignment added put inside
    exact put.back inside rfl
  constructor
  · intro assignment added put
    rcases Worked.below_append.mp put.inside with inside | inside
    · have known := first.since _ _ (early put inside)
      exact ⟨known.1, Nat.lt_of_lt_of_le known.2 size⟩
    · have known := second.since _ _ (late put inside)
      exact ⟨Nat.le_trans order known.1, known.2⟩
  · intro one other added left right
    rcases Worked.below_append.mp left.inside with inside | inside
    · rcases Worked.below_append.mp right.inside with inside' | inside'
      · exact first.single _ _ added (early left inside) (early right inside')
      · have upper := (first.since _ _ (early left inside)).2
        have above := (second.since _ _ (late right inside')).1
        exact absurd upper (Nat.not_lt.mpr above)
    · rcases Worked.below_append.mp right.inside with inside' | inside'
      · have upper := (first.since _ _ (early right inside')).2
        have above := (second.since _ _ (late left inside)).1
        exact absurd upper (Nat.not_lt.mpr above)
      · exact second.single _ _ added (late left inside) (late right inside')

/-- A node that is no assignment adds none to those below its children. -/
theorem Lone.of_children {kind : NodeKind NodeId}
    (known : origin.arena.kind? node = some kind) (other : ¬ Assigns origin node)
    (lone : Lone origin kind.children lower after) : Lone origin [node] lower after := by
  have inner : ∀ {assignment added}, PutInto origin [node] after assignment added →
      PutInto origin kind.children after assignment added := by
    intro assignment added put
    rcases (below_children known).mp put.inside with rfl | inside
    · exact absurd put.assigns other
    · exact put.back inside rfl
  exact ⟨fun _ _ put => lone.since _ _ (inner put), fun _ _ _ left right =>
    lone.single _ _ _ (inner left) (inner right)⟩

/-- Where the statement itself is the only assignment, what was put into it was
added while it was worked on. -/
theorem lone_of_one {results : Option Ty → Prop} (constructed : origin.Constructed limit)
    (bound : node.index < origin.arena.size)
    (work : Worked limit origin results [node] before after)
    (only : ∀ id, Below origin [node] id → Assigns origin id → id = node) :
    Lone origin [node] before.size after where
  since assignment added put := by
    rcases work.settled assignment (Or.inl put.inside) with ⟨kind, fine, slots⟩
    have slot := put.slot
    rw [Arena.children_of_kind fine.found] at slot
    rcases slots added slot with below | made
    · have nodes : ∀ other ∈ [node], other.index < origin.arena.size := by
        simpa using bound
      exact absurd (below_bounded constructed nodes below) (Nat.not_lt.mpr put.new)
    · exact made
  single first second _ left right :=
    (only first left.inside left.assigns).trans (only second right.inside right.assigns).symm

/-- No assignment is below an expression, a type or a target. -/
theorem not_assigns_of_inner (constructed : origin.Constructed limit) {category : Category}
    {id : NodeId} (inner : category.isInner = true)
    (admitted : origin.arena.Admitted category node) (inside : Below origin [node] id) :
    ¬ Assigns origin id := by
  intro assigns
  rcases assigns with ⟨target, value, known⟩
  rcases Arena.inner_below constructed inner admitted (below_singleton.mp inside) with
    ⟨category, inner, kind, found, admits⟩
  cases found.symm.trans known
  cases category with
  | type | target | place | expression => cases admits
  | _ => cases inner

theorem lone_of_leaf {results : Option Ty → Prop} (constructed : origin.Constructed limit)
    {kind : NodeKind NodeId} (known : origin.arena.kind? node = some kind)
    (plain : kind.isNested = false) (statement : kind.isStatement = true)
    (work : Worked limit origin results [node] before after) :
    Lone origin [node] before.size after := by
  apply lone_of_one constructed (Arena.kind_bound known) work
  intro id inside assigns
  rcases (below_children known).mp inside with same | ⟨child, slot, below⟩
  · exact same
  · rcases NodeKind.child_has_slot slot with ⟨category, slot⟩
    have inner := NodeKind.inner_of_not_outer (NodeKind.not_outer_of_leaf plain statement) _ slot
    exact absurd assigns (not_assigns_of_inner constructed inner
      (constructed.admitted known _ slot) (below_singleton.mpr below))

end Lone

/-- A node that holds statements is no assignment. -/
theorem not_assigns_of_nested {node : NodeId} {kind : NodeKind NodeId}
    (known : origin.arena.kind? node = some kind) (nested : kind.isNested = true) :
    ¬ Assigns origin node := by
  intro assigns
  rcases assigns with ⟨target, value, found⟩
  cases known.symm.trans found
  cases nested

theorem Walk.lone (constructed : origin.Constructed limit) {nodes found : List NodeId}
    {before after : InferenceState}
    (walk : Walk limit origin environment nodes before found after)
    (siblings : Siblings origin nodes) : Lone origin nodes before.size after := by
  -- The later statements leave the first one as it is.
  have join : ∀ {node : NodeId} {rest found : List NodeId} {before middle after : InferenceState},
      Siblings origin (node :: rest) → Passed limit origin [node] before middle →
      Lone origin [node] before.size middle →
      Walk limit origin environment rest middle found after →
      Lone origin rest middle.size after → Lone origin (node :: rest) before.size after := by
    intro node rest found before middle after siblings work first later second
    apply first.append second work.leaves.size later.leaves.size
    intro id inside assigns
    apply later.leaves.node id (assigns.bound work.sound) (siblings.apart constructed inside)
  -- What is done for the bodies of a node comes after its condition.
  have asked : ∀ {node condition : NodeId} {kind : NodeKind NodeId} {blocks : List NodeId}
      {before first after : InferenceState},
      origin.arena.kind? node = some kind → kind.isNested = true →
      (Category.expression, condition) ∈ kind.slots → kind.children = condition :: blocks →
      before.size ≤ first.size → first.size ≤ after.size →
      Lone origin blocks first.size after → Lone origin [node] before.size after := by
    intro node condition kind blocks before first after known nested slot children early late lone
    have none : ∀ id, Below origin [condition] id → ¬ Assigns origin id := by
      intro id
      exact not_assigns_of_inner constructed rfl (constructed.admitted known _ slot)
    apply Lone.of_children known (not_assigns_of_nested known nested)
    rw [children]
    have nothing : Lone origin [condition] before.size first := lone_of_none none
    exact nothing.append lone early late fun id inside assigns => absurd assigns (none id inside)
  induction walk with
  | nil =>
      apply lone_of_none
      intro id inside
      rcases inside with ⟨_, none, -⟩
      cases none
  | leaf check known plain admits ready ran taken later ih =>
      exact join siblings taken.work (lone_of_leaf constructed known plain admits taken.work) later
        (ih siblings.tail)
  | @body node statements found _ _ before visited _ known ready inside work later inner ih =>
      have other := not_assigns_of_nested known rfl
      have lone : Lone origin statements before.size visited :=
        inner (siblings_of_kind known (List.Sublist.refl _))
      have kept : Lone origin statements before.size (closed visited node found) := by
        apply lone.later (Nat.le_of_eq (Arena.size_setKind _ _ _).symm)
        intro id _ assigns
        have apart : node ≠ id := fun same => other (same ▸ assigns)
        exact (Arena.node_set_kind _ _ _ _).trans (if_neg apart)
      exact join siblings work (kept.of_children known other) later (ih siblings.tail)
  | @condition node condition thenBody elseBody _ _ before first second third _ known ready ran
      askedWork thenWalk elseWalk work later thenPart elsePart ih =>
      have blocks : Siblings origin (thenBody :: elseBody.toList) :=
        siblings_of_kind known (List.sublist_cons_self _ _)
      have left : Lone origin [thenBody] first.size second :=
        thenPart (siblings_of_kind known (by simp [NodeKind.children]))
      have both : Lone origin (thenBody :: elseBody.toList) first.size third := by
        apply left.append (elsePart blocks.tail) thenWalk.leaves.size elseWalk.leaves.size
        intro id inside assigns
        have bound := assigns.bound askedWork.sound
        exact elseWalk.leaves.node id (Nat.lt_of_lt_of_le bound thenWalk.leaves.size)
          (blocks.apart constructed inside)
      have late := Nat.le_trans thenWalk.leaves.size elseWalk.leaves.size
      exact join siblings work (asked known rfl (by simp [NodeKind.slots]) rfl
        askedWork.leaves.size late both) later (ih siblings.tail)
  | @loop node condition block _ _ before first second _ known ready ran askedWork inside work later
      inner ih =>
      have lone : Lone origin [block] first.size second :=
        inner (siblings_of_kind known (by simp [NodeKind.children]))
      have kept : Lone origin [block] first.size (shallower second) :=
        lone.later (Nat.le_refl _) fun _ _ _ => rfl
      exact join siblings work (asked known rfl (by simp [NodeKind.slots]) rfl
        askedWork.leaves.size inside.leaves.size kept) later (ih siblings.tail)

section Modules

variable {fileName : String} {host : Host} {root : NodeId} {modules imports functions : List NodeId}
  {signatures : List Signature} {signed final : InferenceState}

theorem Course.lone
    (course : Course limit origin fileName host root modules imports functions signatures signed
      final) : Lone origin (allBlocks origin functions) signed.size final := by
  have constructed := course.prepared.constructed
  have alone : ∀ {left before after},
      Rounds limit origin ⟨fileName, host, signatures⟩ functions signed left before after →
      Lone origin (allBlocks origin left) before.size after := by
    intro left before after rounds
    induction rounds with
    | nil =>
        apply lone_of_none
        intro id inside
        rcases inside with ⟨_, none, -⟩
        cases none
    | @next function _ _ _ block _ rest before declared after _ known advanced entry noted ready walk
        work later ih =>
        have isBlock : origin.arena.blocks function = [block] := by simp [Arena.blocks, known]
        have all : allBlocks origin (function :: rest) = [block] ++ allBlocks origin rest := by
          simp [allBlocks, isBlock]
        have size : declared.size = before.size := by
          unfold InferenceState.size
          rw [noted.tree]
          rfl
        have first : Lone origin [block] before.size after := by
          rw [← size]
          exact walk.lone constructed (siblings_of_kind known (by simp [NodeKind.children]))
        have grows : before.size ≤ after.size := by
          rw [← size]
          exact work.leaves.size
        rw [all]
        apply first.append ih grows later.nodes.1
        intro id inside assigns
        exact later.nodes.2 id (assigns.bound work.sound)
          (course.blocks_apart advanced.whole isBlock inside)
  exact alone course.rounds

/-- No assignment stands in a signature. -/
theorem not_assigns_of_head (constructed : origin.Constructed limit)
    (found : origin.arena.kind? root = some (.root modules imports functions)) {id : NodeId}
    (inside : Below origin (allHeads origin functions) id) : ¬ Assigns origin id := by
  rcases inside with ⟨head, member, below⟩
  rcases List.mem_flatMap.mp member with ⟨function, isFunction, isHead⟩
  rcases function_kind constructed found isFunction with ⟨result, name, parameters, block, known⟩
  have types : ∀ node, origin.arena.Admitted .type node → origin.arena.Reachable node id →
      ¬ Assigns origin id := by
    intro node admitted below
    exact not_assigns_of_inner constructed rfl admitted (below_singleton.mpr below)
  unfold Arena.heads at isHead
  rw [known] at isHead
  rcases List.mem_append.mp isHead with written | parameter
  · have slot := constructed.admitted known (.type, head) (by
      simpa [NodeKind.slots] using written)
    exact types head slot below
  · have slot := constructed.admitted known (.parameter, head) (by
      simp [NodeKind.slots, parameter])
    rcases slot with ⟨kind, headKnown, admits⟩
    cases kind with
    | parameter type name =>
        rcases Arena.reachable_cases below with same | ⟨child, slot, below⟩
        · intro assigns
          rcases assigns with ⟨target, value, found⟩
          subst same
          cases headKnown.symm.trans found
        · rw [Arena.children_of_kind headKnown] at slot
          rcases List.mem_singleton.mp slot with rfl
          exact types child (constructed.admitted headKnown (.type, child) (by
            simp [NodeKind.slots])) below
    | _ => cases admits

/-- What was put into an assignment was put into one below the bodies. -/
theorem Course.put_into
    (course : Course limit origin fileName host root modules imports functions signatures signed
      final) {assignment added : NodeId} (assigns : Assigns origin assignment)
    (slot : added ∈ final.tree.arena.children assignment) (new : origin.arena.size ≤ added.index) :
    PutInto origin (allBlocks origin functions) final assignment added := by
  have constructed := course.prepared.constructed
  refine ⟨?_, assigns, slot, new⟩
  by_contra outside
  have heads : ¬ Below origin (allHeads origin functions) assignment := fun inside =>
    not_assigns_of_head constructed course.prepared.found inside assigns
  have first := course.prepared.work.leaves.node assignment (assigns.bound course.prepared.sound)
    heads
  have bound : assignment.index < signed.size := assigns.bound course.sound
  have second := course.advanced.work.leaves.node assignment bound outside
  have same : final.tree.arena.node? assignment = origin.arena.node? assignment := second.trans first
  have held : added ∈ origin.arena.children assignment := by
    unfold Arena.children at *
    rw [Arena.kind_of_node same] at slot
    exact slot
  rcases assigns with ⟨target, value, known⟩
  have old := Nat.lt_trans (constructed.forest.below held) (Arena.kind_bound known)
  exact Nat.not_lt.mpr new old

theorem Course.engrafted
    (course : Course limit origin fileName host root modules imports functions signatures signed
      final) : SourceTree.Engrafted limit origin final.tree root := by
  have constructed := course.prepared.constructed
  have rooted := Arena.kind_bound course.prepared.found
  rcases course.inferred.settled with ⟨region, isRoot, settled, -, -⟩
  refine ⟨constructed, rooted, ?_, ?_, ?_⟩
  · intro id below
    rcases settled id (settled.reachable isRoot below) with ⟨kind, fine, -⟩
    exact ⟨kind, fine.found, fine.traced, fine.joined⟩
  · intro id below
    rcases Relation.ReflTransGen.cases_tail below with same | ⟨parent, above, slot⟩
    · subst same
      have place := (course.inferred.above id (Or.inl rfl)).2
      unfold InferenceState.span? at place
      rw [place]
      exact (constructed.recorded id).mpr rooted
    · rcases settled parent (settled.reachable isRoot above) with ⟨kind, fine, -⟩
      rw [Arena.children_of_kind fine.found] at slot
      exact fine.spanned id slot
  · intro first second added _ _ new inFirst inSecond left right
    exact course.lone.single first second added (course.put_into left inFirst new)
      (course.put_into right inSecond new)

end Modules

end ModuleLang.Inference
