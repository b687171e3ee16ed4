import ModuleLang.Proofs.Typing.Visits
import ModuleLang.Typing.Inference.Statement

/-!
The definition that the first assignment to a name becomes. It is added with the
span of the name, which has none from then on, and the assignment is pointed at
it. The name is still settled, and nothing refers to it any more.
-/

namespace ModuleLang.Inference

variable {limit : Position} {origin : SourceTree} {results : Option Ty → Prop}

section Defining

variable {state : InferenceState} {statement target value : NodeId} {written : Option NodeId}
  {name : String} {type : Option Ty} {span : Span}

/-- The state in which the assignment of `value` defines a variable in the place of
`target`. -/
def defined (state : InferenceState) (statement target value : NodeId) (written : Option NodeId)
    (name : String) (type : Option Ty) (span : Span) : InferenceState :=
  { state with
    tree :=
      ⟨(⟨state.tree.arena.nodes.push ⟨.definition written name, type⟩⟩ : Arena).setKind statement
        (.assign .assign ⟨state.size⟩ value), (state.tree.spans.erase target).insert ⟨state.size⟩ span⟩
    scopes := state.scopes.declare name ⟨type, ⟨state.size⟩, .inner⟩ }

theorem size_defined :
    (defined state statement target value written name type span).size = state.size + 1 := by
  change (Arena.setKind _ _ _).size = _
  rw [Arena.size_setKind]
  simp [Arena.size]

theorem span_defined (id : NodeId) :
    (defined state statement target value written name type span).span? id =
      if id.index = state.size then some span else if id = target then none else state.span? id := by
  change ((state.tree.spans.erase target).insert ⟨state.size⟩ span).span? id = _
  rw [SpanTable.span_insert, SpanTable.span_erase]
  by_cases same : id.index = state.size
  · rw [if_pos same, if_pos (show (⟨state.size⟩ : NodeId) = id from NodeId.ext same.symm)]
  · rw [if_neg same, if_neg fun equal => same (congrArg NodeId.index equal.symm)]
    simp only [eq_comm]

theorem node_defined (id : NodeId) :
    (defined state statement target value written name type span).tree.arena.node? id =
      if statement = id then
        ((state.grown (.definition written name) type span).tree.arena.node? id).map fun node =>
          { node with kind := .assign .assign ⟨state.size⟩ value }
      else (state.grown (.definition written name) type span).tree.arena.node? id :=
  Arena.node_set_kind _ _ _ _

theorem node_defined_of_old {id : NodeId} (old : id.index < state.size) (apart : id ≠ statement) :
    (defined state statement target value written name type span).tree.arena.node? id =
      state.tree.arena.node? id := by
  rw [node_defined, if_neg (Ne.symm apart), InferenceState.node_grown, if_neg (Nat.ne_of_lt old)]

theorem node_defined_of_new (old : statement.index < state.size) :
    (defined state statement target value written name type span).tree.arena.node? ⟨state.size⟩ =
      some ⟨.definition written name, type⟩ := by
  have apart : statement ≠ ⟨state.size⟩ := by
    rintro rfl
    exact Nat.lt_irrefl _ old
  rw [node_defined, if_neg apart, InferenceState.node_grown, if_pos rfl]

theorem kind_defined (old : statement.index < state.size) :
    (defined state statement target value written name type span).kind? statement =
      some (.assign .assign ⟨state.size⟩ value) := by
  obtain ⟨node, found⟩ := Option.isSome_iff_exists.mp (Arena.node_bound.mpr old)
  unfold InferenceState.kind? Arena.kind?
  rw [node_defined, if_pos rfl, InferenceState.node_grown, if_neg (Nat.ne_of_lt old), found]
  rfl

theorem leaves_defined :
    Leaves (fun id => id = statement ∨ id = target) state
      (defined state statement target value written name type span) where
  size := by
    rw [size_defined]
    exact Nat.le_succ _
  node id bound apart := node_defined_of_old bound fun same => apart (Or.inl same)
  span id bound apart := by
    rw [span_defined, if_neg (Nat.ne_of_lt bound), if_neg fun same => apart (Or.inr same)]
  bound id member bound _ := by
    obtain rfl | inside := Scopes.nodes_declare member
    · exact absurd bound (Nat.lt_irrefl _)
    · exact inside
  result := rfl
  diagnostics := List.prefix_refl _

theorem sound_defined (sound : Sound limit origin state) (limited : span.stop ≤ limit)
    (unbound : target ∉ state.scopes.nodes) (was : origin.arena.kind? target = some (.member name)) :
    Sound limit origin (defined state statement target value written name type span) := by
  refine ⟨?_, ?_, ?_, sound.reported, fun {id kind} found solid => ?_⟩
  · rw [size_defined]
    exact Nat.le_succ_of_le sound.size
  · intro id other recorded
    rw [span_defined] at recorded
    rw [size_defined]
    split at recorded
    · cases recorded
      exact ⟨by omega, limited⟩
    · split at recorded
      · cases recorded
      · obtain ⟨bound, bounded⟩ := sound.placed recorded
        exact ⟨by omega, bounded⟩
  · intro id member
    rw [span_defined]
    split
    · rfl
    · rename_i old
      obtain rfl | inside := Scopes.nodes_declare member
      · exact absurd rfl old
      · rw [if_neg (by rintro rfl; exact unbound inside)]
        exact sound.bound id inside
  · have old := Nat.lt_of_lt_of_le (Arena.kind_bound found) sound.size
    have apart : id ≠ target := by
      rintro rfl
      cases was.symm.trans found
      exact solid name rfl
    rw [span_defined, if_neg (Nat.ne_of_lt old), if_neg apart]
    exact sound.rests found solid

end Defining

section Defining

variable {before state middle : InferenceState} {statement target value : NodeId}
  {written : Option NodeId} {name : String} {type : Option Ty} {span : Span}

/-- The assignment is worked on once its target is a definition. -/
theorem worked_defined
    (visits : Visits limit origin results statement (.assign .assign target value) [value] [target]
      before state)
    (was : origin.arena.kind? target = some (.member name))
    (rewrites : Rewrites limit origin results (fun _ => False) (Covered origin [value] before state)
      state middle)
    (added : ∀ id ∈ written, Made state middle id ∧ id.index + 1 = middle.size ∧
      middle.span? id = some span ∧ ∃ type, middle.tree.arena.Spells type id)
    (place : middle.span? target = some span)
    (fits : IfKnown type fun type => IfKnown (state.type? value) fun value =>
      assignability value type = .exact) :
    Worked limit origin results [statement] before
      (defined middle statement target value written name type span) := by
  have forest := visits.constructed.forest
  have targetBound := visits.child_bound (show target ∈ [value] ++ [target] by simp)
  have valueBound := visits.child_bound (show value ∈ [value] ++ [target] by simp)
  have statementBound := Arena.kind_bound visits.found
  have targetBelow := visits.below_index (show target ∈ [value] ++ [target] by simp)
  have valueBelow := visits.below_index (show value ∈ [value] ++ [target] by simp)
  have origins : origin.arena.size ≤ state.size := visits.sound.size
  have grows := rewrites.leaves.size
  have valueCovered : Covered origin [value] before state value := Visits.child_covered (by simp)
  have targetUncovered : ¬ Covered origin [value] before state target := by
    rintro (below | ⟨lower, -⟩)
    · exact visits.next_apart below (below_singleton.mpr .refl)
    · have size := visits.start.size
      omega
  have targetApart : target ≠ value := by
    rintro rfl
    exact targetUncovered valueCovered
  have valueKept := rewrites.leaves.node value (Nat.lt_of_lt_of_le valueBound origins) id
  have targetKept := rewrites.leaves.node target (Nat.lt_of_lt_of_le targetBound origins) id
  have unbound : target ∉ middle.scopes.nodes := by
    intro inside
    have earlier := rewrites.leaves.bound target inside (Nat.lt_of_lt_of_le targetBound origins) id
    exact visits.next_untouched.unbound target (below_singleton.mpr .refl) earlier
  have leaves : Leaves (fun id => id = statement ∨ id = target) middle
      (defined middle statement target value written name type span) :=
    leaves_defined
  have sound : Sound limit origin (defined middle statement target value written name type span) :=
    sound_defined rewrites.sound (rewrites.sound.placed place).2 unbound was
  have size : (defined middle statement target value written name type span).size =
      middle.size + 1 := size_defined
  have spans : ∀ id, (defined middle statement target value written name type span).span? id =
      if id.index = middle.size then some span else if id = target then none else middle.span? id :=
    span_defined
  have nodes : ∀ id, id.index < middle.size → id ≠ statement →
      (defined middle statement target value written name type span).tree.arena.node? id =
        middle.tree.arena.node? id := by
    intro id old apart
    exact node_defined_of_old old apart
  have statementOld : statement.index < middle.size :=
    Nat.lt_of_lt_of_le statementBound (Nat.le_trans origins grows)
  have definitionNode :
      (defined middle statement target value written name type span).tree.arena.node? ⟨middle.size⟩ =
        some ⟨.definition written name, type⟩ := node_defined_of_new statementOld
  have statementKind : (defined middle statement target value written name type span).kind? statement =
      some (.assign .assign ⟨middle.size⟩ value) := kind_defined statementOld
  generalize defined middle statement target value written name type span = final
    at leaves sound size spans nodes definitionNode statementKind ⊢
  have targetFine : Fine origin results final target (final.type? target) (.member name) := by
    have found : final.kind? target = some (.member name) := by
      have same := nodes target (by omega) (by rintro rfl; exact Nat.lt_irrefl _ targetBelow)
      have kind := visits.next_untouched.kind target (below_singleton.mpr .refl)
      exact (Arena.kind_of_node (same.trans targetKept)).trans (kind.trans was)
    exact ⟨found, SourceTree.traced_parsed forest was, SourceTree.joined_leaf rfl,
      by simp [NodeKind.children], fun _ => trivial⟩
  have definitionFine : Fine origin results final ⟨middle.size⟩ (final.type? ⟨middle.size⟩)
      (.definition written name) := by
    have writtenSpan : ∀ child ∈ written, final.span? child = some span := by
      intro child member
      obtain ⟨⟨lower, upper⟩, -, known, -⟩ := added child member
      rw [spans, if_neg (Nat.ne_of_lt upper), if_neg (by rintro rfl; omega)]
      exact known
    refine ⟨?_, .added (Nat.le_trans origins grows) (.definition fun id member => ?_), ?_, ?_,
      fun _ => trivial⟩
    · unfold InferenceState.kind? Arena.kind?
      rw [definitionNode]
      rfl
    · obtain ⟨⟨lower, upper⟩, -, -, type, spells⟩ := added id member
      refine ⟨type, Arena.spells_of_node (nodes id upper ?_) spells⟩
      rintro rfl
      exact Nat.not_lt.mpr (Nat.le_trans origins lower) statementBound
    · apply SourceTree.joined_added
      intro slot member
      have held : slot.2 ∈ written := by
        simpa [NodeKind.children] using NodeKind.slot_is_child member
      have own : final.span? ⟨middle.size⟩ = some span := by rw [spans, if_pos rfl]
      obtain ⟨made, follows, -⟩ := added slot.2 held
      exact ⟨(writtenSpan slot.2 held).trans own.symm,
        Or.inl ⟨Nat.le_trans origins made.1, follows⟩⟩
    · intro child member
      rw [writtenSpan child (by simpa [NodeKind.children] using member)]
      rfl
  have statementFine : Fine origin results final statement (final.type? statement)
      (.assign .assign ⟨middle.size⟩ value) := by
    have definitionType : final.type? ⟨middle.size⟩ = type := by
      unfold InferenceState.type? Arena.type?
      rw [definitionNode]
      rfl
    have valueType : final.type? value = state.type? value := by
      have same := nodes value (by omega) (by rintro rfl; exact Nat.lt_irrefl _ valueBelow)
      exact Arena.type_of_node (same.trans valueKept)
    have replaces : SourceTree.Stands origin final.tree .target target ⟨middle.size⟩ :=
      Or.inr ⟨Nat.le_trans origins grows, .definition was definitionFine.found⟩
    have valueSpan : final.span? value = state.span? value := by
      rw [spans, if_neg (by omega), if_neg (Ne.symm targetApart),
        rewrites.spans value (Nat.lt_of_lt_of_le valueBound origins)]
    refine ⟨statementKind, .parsed visits.found (.assign replaces (Or.inl rfl)) (by simp), ?_, ?_,
      fun _ => ?_⟩
    · apply SourceTree.joined_parsed visits.constructed statementBound
      · change final.span? statement = _
        rw [spans, if_neg (by omega), if_neg (by rintro rfl; omega),
          rewrites.spans statement (Nat.lt_of_lt_of_le statementBound origins)]
        exact visits.node_same.2
      · simp only [NodeKind.children, List.mem_cons, List.not_mem_nil, or_false, forall_eq_or_imp,
          forall_eq]
        have targetSpan : middle.span? target = origin.spans.span? target :=
          (rewrites.spans target (Nat.lt_of_lt_of_le targetBound origins)).trans
            (visits.next_untouched.span target (below_singleton.mpr .refl))
        have definitionSpan : final.span? ⟨middle.size⟩ = some span := by rw [spans, if_pos rfl]
        exact ⟨⟨target, visits.child_below (by simp),
            definitionSpan.trans (place.symm.trans targetSpan)⟩,
          value, visits.child_below (by simp), valueSpan.trans (visits.work.spans value (by simp))⟩
    · simp only [NodeKind.children, List.mem_cons, List.not_mem_nil, or_false, forall_eq_or_imp,
        forall_eq]
      rw [spans, if_pos rfl, valueSpan]
      exact ⟨rfl, visits.child_spanned (by simp)⟩
    · simp only [NodeKind.Obeys, definitionType, valueType]
      exact fits
  have kept := rewrites.settled.later leaves (by
    rintro id (inside | ⟨lower, -⟩) (rfl | rfl)
    · exact visits.node_uncovered inside
    · exact targetUncovered inside
    · omega
    · omega)
  have settled := ((kept.insert targetFine (by simp [NodeKind.children])).insert definitionFine (by
      intro child member
      exact Or.inr (Or.inr (added child (by simpa [NodeKind.children] using member)).1))).insert
    statementFine (by
      simp only [NodeKind.children, List.mem_cons, List.not_mem_nil, or_false, forall_eq_or_imp,
        forall_eq]
      exact ⟨Or.inl trivial, Or.inr (Or.inr (Or.inl valueCovered))⟩)
  have below : ∀ id, Below origin [statement] id ↔
      id = statement ∨ id = target ∨ Below origin [value] id := by
    intro id
    have leaf : Below origin [target] id ↔ id = target := by
      rw [below_children was]
      simp [Below, NodeKind.children]
    rw [below_children visits.found]
    change _ ∨ Below origin ([target] ++ [value]) id ↔ _
    rw [Worked.below_append, leaf]
  refine ⟨sound, ?_, settled.congr fun id => ?_, ?_⟩
  · have first : Leaves (Below origin [statement]) before state :=
      visits.work.leaves.weaken fun id inside => (below id).mpr (Or.inr (Or.inr inside))
    refine (first.trans rewrites.leaves fun _ inside _ => inside.elim).trans leaves ?_
    rintro id (rfl | rfl) _
    · exact (below id).mpr (Or.inl rfl)
    · exact (below id).mpr (Or.inr (Or.inl rfl))
  · have last : Made middle final id ↔ id = ⟨middle.size⟩ := by
      unfold Made
      rw [size]
      constructor
      · rintro ⟨lower, upper⟩
        exact NodeId.ext (by change id.index = middle.size; omega)
      · rintro rfl
        exact ⟨Nat.le_refl _, Nat.lt_succ_self _⟩
    unfold Covered
    rw [below, made_split visits.work.leaves.size (Nat.le_trans grows leaves.size),
      made_split grows leaves.size, last]
    tauto
  · intro node member
    rw [List.mem_singleton] at member
    subst member
    have apart : node ≠ target := by
      rintro rfl
      exact Nat.lt_irrefl _ targetBelow
    rw [spans, if_neg (by omega), if_neg apart, rewrites.spans node (by omega)]
    exact visits.node_same.2

theorem yields_defined {holds : PUnit → InferenceState → Prop} (sound : Sound limit origin state)
    (found : state.kind? statement = some (.assign .assign target value)) (apart : target ≠ value)
    (place : state.span? target = some span)
    (met : holds ⟨⟩ (defined state statement target value written name type span)) :
    Yields (do
      let definition ← onTree (SourceTree.alloc (.definition written name))
      setType definition type
      onTree (SourceTree.onSpans (SpanTable.move target definition))
      onTree (SourceTree.replaceChild statement target definition "Assign")
      onScopes (Scopes.declare name ⟨type, definition, .inner⟩)) state holds := by
  refine yields_alloc_typed ?_
  rw [yields_bind, yields_on_tree, SourceTree.yields_on_spans]
  refine SpanTable.yields_move place ?_ ?_
  · cases recorded : state.span? ⟨state.size⟩ with
    | none => exact recorded
    | some other => exact absurd (sound.placed recorded).1 (Nat.lt_irrefl _)
  · rw [yields_bind]
    have still : (InferenceState.withArena state
        ⟨state.tree.arena.nodes.push ⟨.definition written name, type⟩⟩).kind? statement =
          some (.assign .assign target value) := by
      have bound := Arena.kind_bound found
      have same : (state.grown (.definition written name) type span).tree.arena.node? statement =
          state.tree.arena.node? statement := by
        rw [InferenceState.node_grown, if_neg (Nat.ne_of_lt bound)]
      exact (Arena.kind_of_node same).trans found
    refine yields_replace_child still (by simpa [NodeKind.children] using apart)
      (by simp [NodeKind.children]) ?_
    rw [yields_on_scopes]
    simp only [NodeKind.map, NodeKind.swap, if_true, if_neg (Ne.symm apart)]
    exact met

/-- The first assignment to a name, of a value whose type is known or hidden by an
error. -/
theorem yields_implicit_definition {valueType : Option Ty}
    (visits : Visits limit origin results statement (.assign .assign target value) [value] [target]
      before state)
    (was : origin.arena.kind? target = some (.member name))
    (told : ∀ found, valueType = some found → state.type? value = some found) :
    Yields (implicitDefinition statement target name valueType) state fun _ final =>
      Worked limit origin results [statement] before final := by
  have apart : target ≠ value := by
    simpa [NodeKind.children] using visits.distinct
  have bound := visits.child_bound (show target ∈ [value] ++ [target] by simp)
  have spanned : (state.span? target).isSome := by
    rw [visits.next_untouched.span target (below_singleton.mpr .refl)]
    exact (visits.constructed.recorded target).mpr bound
  obtain ⟨span, place⟩ := Option.isSome_iff_exists.mp spanned
  have statementKind := visits.node_same.1
  unfold implicitDefinition
  rw [yields_bind]
  cases kept : valueType.filter fun type => type ≠ .null with
  | none =>
      rw [Option.mapM_none, yields_pure]
      refine yields_defined visits.sound statementKind apart place ?_
      exact worked_defined visits was (.refl visits.sound visits.work.settled) (by simp) place
        (if_known_none _)
  | some type =>
      have known := told type (Option.filter_eq_some_iff.mp kept).1
      rw [Option.mapM_some, yields_map]
      refine yields_add_type_ref visits.sound place ?_
      have rewrites : Rewrites limit origin results (fun _ => False)
          (Covered origin [value] before state) state
          (state.spelled type span) :=
        rewrites_leaf visits.sound visits.work.settled (visits.sound.placed place).2 _
          (fun _ _ => .typeRef _ _) rfl fun _ _ => trivial
      have made : Made state (state.spelled type span) ⟨state.size⟩ := by
        refine ⟨Nat.le_refl _, ?_⟩
        rw [InferenceState.size_grown]
        exact Nat.lt_succ_self _
      have writtenSpan : (state.spelled type span).span? ⟨state.size⟩ = some span := by
        rw [InferenceState.span_grown, if_pos rfl]
      have still : (state.spelled type span).span? target = some span := by
        rw [rewrites.spans target (visits.sound.placed place).1]
        exact place
      have statementStill : (state.spelled type span).kind? statement =
          some (.assign .assign target value) := by
        have old := Arena.kind_bound statementKind
        exact (Arena.kind_of_node (rewrites.leaves.node statement old id)).trans statementKind
      refine yields_defined rewrites.sound statementStill apart still ?_
      refine worked_defined visits was rewrites ?_ still ?_
      · intro id member
        cases member
        exact ⟨made, InferenceState.size_grown.symm, writtenSpan, type,
          InferenceState.spells_spelled type⟩
      · rw [known]
        exact if_known_some (if_known_some (assignability_self type))

end Defining

end ModuleLang.Inference
