import ModuleLang.Proofs.Typing.Rewriting

/-!
The widening cast. Its two nodes are added with the span of the child, the slot
of the parent is pointed at the cast, and the cast gets its type last; what comes
out is described at once, node by node.
-/

namespace ModuleLang.Inference

variable {limit : Position} {origin : SourceTree} {results : Option Ty → Prop}

section Widening

variable {state : InferenceState} {parent child : NodeId} {kind : NodeKind NodeId}
  {source target : Ty} {span : Span}

/-- The state with the two nodes of a cast around `child`, before they are used. -/
def withCast (state : InferenceState) (child : NodeId) (source target : Ty) (span : Span) :
    InferenceState :=
  (state.spelled target span).grown
    (.cast ⟨state.size⟩ child (some source)) none span

/-- The state in which the cast stands in the slot of `parent` and has its type. -/
def widened (state : InferenceState) (parent child : NodeId) (kind : NodeKind NodeId)
    (source target : Ty) (span : Span) : InferenceState :=
  let added := withCast state child source target span
  added.withArena ((added.tree.arena.setKind parent
    (kind.map (NodeKind.swap child ⟨state.size + 1⟩))).setType ⟨state.size + 1⟩ (some target))

theorem size_widened :
    (widened state parent child kind source target span).size = state.size + 2 := by
  unfold widened
  change (Arena.setType _ _ _).size = _
  rw [Arena.size_setType, Arena.size_setKind]
  simp [withCast, InferenceState.grown, Arena.size]

theorem span_widened (id : NodeId) :
    (widened state parent child kind source target span).span? id =
      if state.size ≤ id.index ∧ id.index < state.size + 2 then some span
      else state.span? id := by
  change (withCast state child source target span).span? id = _
  unfold withCast
  rw [InferenceState.span_grown, InferenceState.size_grown, InferenceState.span_grown]
  by_cases cast : id.index = state.size + 1
  · rw [if_pos cast, if_pos (by omega)]
  · rw [if_neg cast]
    by_cases written : id.index = state.size
    · rw [if_pos written, if_pos (by omega)]
    · rw [if_neg written, if_neg (by omega)]

theorem node_widened_of_old {id : NodeId} (old : id.index < state.size) (apart : id ≠ parent) :
    (widened state parent child kind source target span).tree.arena.node? id =
      state.tree.arena.node? id := by
  have different : (⟨state.size + 1⟩ : NodeId) ≠ id := by
    rintro rfl
    exact Nat.not_lt.mpr (Nat.le_succ _) old
  unfold widened InferenceState.withArena withCast
  simp only
  rw [Arena.node_set_type, if_neg different, Arena.node_set_kind, if_neg (Ne.symm apart),
    InferenceState.node_grown, InferenceState.size_grown, if_neg (by omega),
    InferenceState.node_grown, if_neg (by omega)]

theorem node_widened_parent (old : parent.index < state.size) :
    (widened state parent child kind source target span).tree.arena.node? parent =
      (state.tree.arena.node? parent).map fun node =>
        { node with kind := kind.map (NodeKind.swap child ⟨state.size + 1⟩) } := by
  have different : (⟨state.size + 1⟩ : NodeId) ≠ parent := by
    rintro rfl
    exact Nat.not_lt.mpr (Nat.le_succ _) old
  unfold widened InferenceState.withArena withCast
  simp only
  rw [Arena.node_set_type, if_neg different, Arena.node_set_kind, if_pos rfl,
    InferenceState.node_grown, InferenceState.size_grown, if_neg (by omega),
    InferenceState.node_grown, if_neg (by omega)]

theorem node_widened_cast (old : parent.index < state.size) :
    (widened state parent child kind source target span).tree.arena.node?
      ⟨state.size + 1⟩ = some ⟨.cast ⟨state.size⟩ child (some source), some target⟩ := by
  have different : parent ≠ ⟨state.size + 1⟩ := by
    rintro rfl
    exact Nat.not_lt.mpr (Nat.le_succ _) old
  unfold widened InferenceState.withArena withCast
  simp only
  rw [Arena.node_set_type, if_pos rfl, Arena.node_set_kind, if_neg different,
    InferenceState.node_grown, InferenceState.size_grown, if_pos rfl]
  rfl

theorem node_widened_written (old : parent.index < state.size) :
    (widened state parent child kind source target span).tree.arena.node?
      ⟨state.size⟩ = some ⟨.typeRef target.layers.1.text target.layers.2, some target⟩ := by
  have different : parent ≠ ⟨state.size⟩ := by
    rintro rfl
    exact Nat.lt_irrefl _ old
  have other : (⟨state.size + 1⟩ : NodeId) ≠ ⟨state.size⟩ := by simp
  unfold widened InferenceState.withArena withCast
  simp only
  rw [Arena.node_set_type, if_neg other, Arena.node_set_kind, if_neg different,
    InferenceState.node_grown, InferenceState.size_grown, if_neg (by simp),
    InferenceState.node_grown, if_pos rfl]

end Widening

/-- What a widening cast does: the slot of `parent` that held `child` holds a cast
to `target`. -/
structure Widened (limit : Position) (origin : SourceTree) (results : Option Ty → Prop)
    (parent child : NodeId) (kind : NodeKind NodeId) (target : Ty) (region : Region)
    (before after : InferenceState) (node : NodeId) : Prop where
  rewrites : Rewrites limit origin results (fun id => id = parent) region before after
  scopes : after.scopes = before.scopes
  diagnostics : after.diagnostics = before.diagnostics
  made : Made before after node
  cast : ∃ written source, after.kind? node = some (.cast written child source)
  type : after.type? node = some target
  span : after.span? node = before.span? child
  parent : after.kind? parent = some (kind.map (NodeKind.swap child node))

section Widening

variable {state : InferenceState} {region : Region} {parent child : NodeId}
  {kind : NodeKind NodeId} {source target : Ty}

theorem widened_of_state {span : Span}
    (sound : Sound limit origin state) (settled : Settled origin results region state)
    (inside : region child) (outside : ¬ region parent) (found : state.kind? parent = some kind)
    (old : child.index < origin.arena.size) (typed : state.type? child = some source)
    (widens : source.widensTo target = true) (place : state.span? child = some span) :
    Widened limit origin results parent child kind target region state
      (widened state parent child kind source target span) ⟨state.size + 1⟩ := by
  have limited := (sound.placed place).2
  have parentOld : parent.index < state.size := Arena.kind_bound found
  have childOld : child.index < state.size := settled.bounded inside
  have childApart : child ≠ parent := fun same => outside (same ▸ inside)
  have leaves : Leaves (fun id => id = parent) state
      (widened state parent child kind source target span) :=
    { size := by
        rw [size_widened]
        omega
      node := fun id bound apart => node_widened_of_old bound apart
      span := fun id bound _ => by rw [span_widened, if_neg (by omega)]
      bound := fun _ member _ _ => member
      result := rfl
      diagnostics := List.prefix_refl _ }
  generalize sameFinal : widened state parent child kind source target span = final
    at leaves
  have size : final.size = state.size + 2 := by rw [← sameFinal, size_widened]
  have spans : ∀ id, final.span? id = if state.size ≤ id.index ∧ id.index < state.size + 2
      then some span else state.span? id := by
    rw [← sameFinal]
    exact span_widened
  have writtenNode : final.tree.arena.node? ⟨state.size⟩ =
      some ⟨.typeRef target.layers.1.text target.layers.2, some target⟩ := by
    rw [← sameFinal]
    exact node_widened_written parentOld
  have castNode : final.tree.arena.node? ⟨state.size + 1⟩ =
      some ⟨.cast ⟨state.size⟩ child (some source), some target⟩ := by
    rw [← sameFinal]
    exact node_widened_cast parentOld
  have parentKind : final.kind? parent =
      some (kind.map (NodeKind.swap child ⟨state.size + 1⟩)) := by
    obtain ⟨node, found, -⟩ := Option.map_eq_some_iff.mp found
    unfold InferenceState.kind? Arena.kind?
    rw [← sameFinal, node_widened_parent parentOld, found]
    rfl
  have childType : final.type? child = some source :=
    (Arena.type_of_node (leaves.node child childOld childApart)).trans typed
  have childSpan : final.span? child = some span := by
    rw [leaves.span child childOld childApart]
    exact place
  have castKind : final.kind? ⟨state.size + 1⟩ =
      some (.cast ⟨state.size⟩ child (some source)) := by
    unfold InferenceState.kind? Arena.kind?
    rw [castNode]
    rfl
  have castType : final.type? ⟨state.size + 1⟩ = some target := by
    unfold InferenceState.type? Arena.type?
    rw [castNode]
    rfl
  have writtenType : final.type? ⟨state.size⟩ = some target := by
    unfold InferenceState.type? Arena.type?
    rw [writtenNode]
    rfl
  have writtenFine : Fine origin results final ⟨state.size⟩ (final.type? ⟨state.size⟩)
      (.typeRef target.layers.1.text target.layers.2) := by
    refine ⟨?_, .added sound.size (.typeRef _ _), SourceTree.joined_leaf rfl, ?_, fun _ => trivial⟩
    · unfold InferenceState.kind? Arena.kind?
      rw [writtenNode]
      rfl
    · simp [NodeKind.children]
  have castFine : Fine origin results final ⟨state.size + 1⟩ (final.type? ⟨state.size + 1⟩)
      (.cast ⟨state.size⟩ child (some source)) := by
    have writtenSpan : final.span? ⟨state.size⟩ = some span := by rw [spans, if_pos (by simp)]
    have castSpan : final.span? ⟨state.size + 1⟩ = some span := by rw [spans, if_pos (by simp)]
    refine ⟨castKind, ?_, ?_, ?_, fun _ => ?_⟩
    · refine .added (Nat.le_succ_of_le sound.size)
        (.cast ⟨writtenFine.found, writtenType⟩ old childType castType widens ?_)
      exact castSpan.trans childSpan.symm
    · apply SourceTree.joined_added
      simp only [NodeKind.slots, List.mem_cons, List.not_mem_nil, or_false, forall_eq_or_imp,
        forall_eq]
      exact ⟨⟨writtenSpan.trans castSpan.symm, Or.inl ⟨sound.size, rfl⟩⟩, childSpan.trans castSpan.symm,
        Or.inr ⟨old, by simp⟩⟩
    · simp only [NodeKind.children, List.mem_cons, List.not_mem_nil, or_false, forall_eq_or_imp,
        forall_eq]
      exact ⟨by rw [writtenSpan]; rfl, by rw [childSpan]; rfl⟩
    · simp only [NodeKind.Obeys, childType, writtenType, castType]
      exact ⟨trivial, if_known_some ⟨rfl, if_known_some (casts_of_widens widens)⟩⟩
  have scopes : final.scopes = state.scopes := by rw [← sameFinal]; rfl
  have diagnostics : final.diagnostics = state.diagnostics := by rw [← sameFinal]; rfl
  refine ⟨⟨⟨?_, ?_, ?_, ?_, ?_⟩, leaves, ?_, ?_⟩, scopes, diagnostics, ⟨Nat.le_succ _, ?_⟩,
    ⟨_, _, castKind⟩, castType, by rw [spans, if_pos (by simp), place], parentKind⟩
  · exact Nat.le_trans sound.size leaves.size
  · intro id other recorded
    rw [spans] at recorded
    rw [size]
    split at recorded
    · cases recorded
      exact ⟨by omega, limited⟩
    · obtain ⟨bound, bounded⟩ := sound.placed recorded
      exact ⟨by omega, bounded⟩
  · intro id member
    rw [spans]
    split
    · rfl
    · exact sound.bound id (scopes ▸ member)
  · rw [diagnostics]
    exact sound.reported
  · intro id kind found solid
    have old := Nat.lt_of_lt_of_le (Arena.kind_bound found) sound.size
    rw [spans, if_neg (by omega)]
    exact sound.rests found solid
  · have kept := settled.later leaves fun id member same => outside (same ▸ member)
    have counted := (kept.insert writtenFine (by simp [NodeKind.children])).insert castFine (by
      simp only [NodeKind.children, List.mem_cons, List.not_mem_nil, or_false, forall_eq_or_imp,
        forall_eq]
      exact ⟨Or.inl trivial, Or.inr inside⟩)
    refine counted.congr fun id => ?_
    unfold Made
    rw [size]
    constructor
    · rintro (member | ⟨lower, upper⟩)
      · exact Or.inr (Or.inr member)
      · by_cases first : id.index = state.size
        · exact Or.inr (Or.inl (NodeId.ext first))
        · exact Or.inl (NodeId.ext (by change id.index = state.size + 1; omega))
    · rintro (rfl | rfl | member)
      · exact Or.inr ⟨Nat.le_succ _, Nat.lt_succ_self _⟩
      · exact Or.inr ⟨Nat.le_refl _, Nat.lt_succ_of_lt (Nat.lt_succ_self _)⟩
      · exact Or.inl member
  · intro id bound
    rw [spans, if_neg (by omega)]
  · rw [size]
    exact Nat.lt_succ_self _

theorem yields_insert_cast {holds : PUnit → InferenceState → Prop}
    (sound : Sound limit origin state) (settled : Settled origin results region state)
    (inside : region child) (outside : ¬ region parent) (found : state.kind? parent = some kind)
    (distinct : kind.children.Nodup) (member : child ∈ kind.children)
    (old : child.index < origin.arena.size) (typed : state.type? child = some source)
    (widens : source.widensTo target = true) (known : (state.span? child).isSome)
    (met : ∀ node final,
      Widened limit origin results parent child kind target region state final node →
      holds ⟨⟩ final) :
    Yields (insertCast parent child target) state holds := by
  obtain ⟨span, place⟩ := Option.isSome_iff_exists.mp known
  have parentOld : parent.index < state.size := Arena.kind_bound found
  have childOld : child.index < state.size := settled.bounded inside
  have limited := (sound.placed place).2
  unfold insertCast
  rw [yields_bind, yields_type, typed, yields_bind]
  refine yields_add_type_ref sound place ?_
  have grown : Sound limit origin (state.spelled target span) := sound_grown sound limited
  have childPlace : (state.spelled target span).span? child = some span := by
    rw [InferenceState.span_grown, if_neg (Nat.ne_of_lt childOld)]
    exact place
  rw [yields_bind]
  refine yields_add grown childPlace ?_
  have parentKind : (withCast state child source target span).kind? parent =
      some kind := by
    rw [← found]
    apply Arena.kind_of_node
    unfold withCast
    rw [InferenceState.node_grown, InferenceState.size_grown, if_neg (by omega),
      InferenceState.node_grown, if_neg (by omega)]
  rw [yields_bind]
  refine yields_replace_child parentKind distinct member ?_
  rw [yields_set_type, InferenceState.size_grown]
  exact met _ _ (widened_of_state sound settled inside outside found old typed widens place)

end Widening

end ModuleLang.Inference
