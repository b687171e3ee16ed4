import ModuleLang.Proofs.Tree.Replacing
import ModuleLang.Proofs.Typing.Regions

/-!
The steps that rewrite a tree: a report, a type that is stored, a node that is
added, and a widening cast that is put in. Each step is described by what it does
to the nodes of the arena and to their spans, and by what it leaves settled.
-/

namespace ModuleLang

namespace InferenceState

/-- A state with another arena. -/
def withArena (state : InferenceState) (arena : Arena) : InferenceState :=
  { state with tree := { state.tree with arena } }

/-- A state with one more node. -/
def grown (state : InferenceState) (kind : NodeKind NodeId) (type : Option Ty) (span : Span) :
    InferenceState :=
  { state with tree :=
      ⟨⟨state.tree.arena.nodes.push ⟨kind, type⟩⟩, state.tree.spans.insert ⟨state.size⟩ span⟩ }

/-- A state with the written form of a type. -/
abbrev spelled (state : InferenceState) (type : Ty) (span : Span) : InferenceState :=
  state.grown (.typeRef type.layers.1.text type.layers.2) (some type) span

variable {state : InferenceState} {kind : NodeKind NodeId} {type : Option Ty} {span : Span}

theorem size_grown : (state.grown kind type span).size = state.size + 1 := by
  simp [grown, Arena.size]

theorem node_grown (id : NodeId) : (state.grown kind type span).tree.arena.node? id =
    if id.index = state.size then some ⟨kind, type⟩ else state.tree.arena.node? id :=
  Array.getElem?_push

theorem span_grown (id : NodeId) : (state.grown kind type span).span? id =
    if id.index = state.size then some span else state.span? id := by
  unfold grown span?
  rw [SpanTable.span_insert]
  by_cases same : id.index = state.size
  · rw [if_pos same, if_pos (show (⟨state.size⟩ : NodeId) = id from NodeId.ext same.symm)]
  · rw [if_neg same, if_neg fun equal => same (congrArg NodeId.index equal.symm)]

theorem kind_of_grown : (state.grown kind type span).kind? ⟨state.size⟩ = some kind := by
  unfold kind? Arena.kind?
  rw [node_grown, if_pos rfl]
  rfl

theorem type_of_grown : (state.grown kind type span).type? ⟨state.size⟩ = type := by
  unfold type? Arena.type?
  rw [node_grown, if_pos rfl]
  rfl

theorem spells_spelled (type : Ty) : (state.spelled type span).tree.arena.Spells type ⟨state.size⟩ :=
  ⟨kind_of_grown, type_of_grown⟩

end InferenceState

namespace Inference

variable {value : Type} {limit : Position} {origin : SourceTree} {results : Option Ty → Prop}
  {environment : Environment}

theorem yields_on_tree (action : SourceTree.Action value) (start : InferenceState)
    (holds : value → InferenceState → Prop) :
    Yields (onTree action) start holds ↔
      Yields action start.tree fun result tree => holds result { start with tree } := by
  unfold Yields EStateM.run onTree EStateM.run
  cases action start.tree <;> rfl

theorem yields_kind (node : NodeId) (start : InferenceState)
    (holds : Option (NodeKind NodeId) → InferenceState → Prop) :
    Yields (kind? node) start holds ↔ holds (start.kind? node) start :=
  Iff.rfl

theorem yields_type (node : NodeId) (start : InferenceState)
    (holds : Option Ty → InferenceState → Prop) :
    Yields (type? node) start holds ↔ holds (start.type? node) start :=
  Iff.rfl

theorem yields_scopes (start : InferenceState) (holds : Scopes → InferenceState → Prop) :
    Yields scopes start holds ↔ holds start.scopes start :=
  Iff.rfl

theorem yields_on_scopes (step : Scopes → Scopes) (start : InferenceState)
    (holds : PUnit → InferenceState → Prop) :
    Yields (onScopes step) start holds ↔ holds ⟨⟩ { start with scopes := step start.scopes } :=
  Iff.rfl

theorem yields_set_type (node : NodeId) (type : Option Ty) (start : InferenceState)
    (holds : PUnit → InferenceState → Prop) :
    Yields (setType node type) start holds ↔
      holds ⟨⟩ (start.withArena (start.tree.arena.setType node type)) :=
  Iff.rfl

theorem yields_set_kind (node : NodeId) (kind : NodeKind NodeId) (start : InferenceState)
    (holds : PUnit → InferenceState → Prop) :
    Yields (onTree (SourceTree.setKind node kind)) start holds ↔
      holds ⟨⟩ (start.withArena (start.tree.arena.setKind node kind)) :=
  Iff.rfl

theorem yields_replace_child {parent old new : NodeId} {kind : NodeKind NodeId}
    {expected : String} {start : InferenceState} {holds : PUnit → InferenceState → Prop}
    (found : start.kind? parent = some kind) (distinct : kind.children.Nodup)
    (member : old ∈ kind.children)
    (met : holds ⟨⟩ (start.withArena (start.tree.arena.setKind parent
      (kind.map (NodeKind.swap old new))))) :
    Yields (onTree (SourceTree.replaceChild parent old new expected)) start holds := by
  have replaced : start.tree.arena.replaceChild? parent old new =
      some (start.tree.arena.setKind parent (kind.map (NodeKind.swap old new))) := by
    have known : start.tree.arena.kind? parent = some kind := found
    unfold Arena.replaceChild?
    rw [known, Option.bind_some, NodeKind.replace_child_eq new kind distinct member]
    rfl
  rw [yields_on_tree]
  unfold SourceTree.replaceChild
  rw [yields_bind, yields_get, replaced, yields_modify]
  exact met

/-- What a report does. -/
structure Reported (limit : Position) (origin : SourceTree) (kind : DiagnosticKind)
    (before after : InferenceState) : Prop where
  tree : after.tree = before.tree
  scopes : after.scopes = before.scopes
  sound : Sound limit origin after
  leaves : Leaves (fun _ => False) before after
  unclean : kind.level = .error → ¬ after.Clean

theorem yields_report {node : NodeId} {kind : DiagnosticKind} {start : InferenceState}
    {holds : PUnit → InferenceState → Prop} (sound : Sound limit origin start)
    (known : (start.span? node).isSome)
    (met : ∀ final, Reported limit origin kind start final → holds ⟨⟩ final) :
    Yields (report environment node kind) start holds := by
  obtain ⟨span, found⟩ := Option.isSome_iff_exists.mp known
  unfold report
  rw [yields_bind, yields_get, yields_bind, SpanTable.report_of_span found,
    SourceTree.yields_of_except]
  refine ⟨_, rfl, ?_⟩
  rw [yields_modify]
  refine met _ ⟨rfl, rfl, ⟨sound.size, sound.placed, sound.bound, ?_, sound.rests⟩,
    ⟨Nat.le_refl _, fun _ _ _ => rfl, fun _ _ _ => rfl, fun _ inside _ _ => inside, rfl,
      List.prefix_append _ _⟩, ?_⟩
  · intro diagnostic member
    obtain old | new := List.mem_append.mp member
    · exact sound.reported diagnostic old
    · rw [List.mem_singleton] at new
      subst new
      exact (sound.placed found).2
  · intro level clean
    simp [InferenceState.Clean, Diagnostic.hasErrors, Diagnostic.isError, Diagnostic.level,
      level] at clean

section Growing

variable {state : InferenceState} {kind : NodeKind NodeId} {type : Option Ty} {span : Span}

theorem sound_grown (sound : Sound limit origin state) (inside : span.stop ≤ limit) :
    Sound limit origin (state.grown kind type span) where
  size := by
    rw [InferenceState.size_grown]
    exact Nat.le_succ_of_le sound.size
  placed := by
    intro id found recorded
    rw [InferenceState.span_grown] at recorded
    rw [InferenceState.size_grown]
    split at recorded
    · cases recorded
      exact ⟨by omega, inside⟩
    · obtain ⟨bound, limited⟩ := sound.placed recorded
      exact ⟨by omega, limited⟩
  bound := by
    intro id member
    rw [InferenceState.span_grown]
    split
    · rfl
    · exact sound.bound id member
  reported := sound.reported
  rests := by
    intro id other found solid
    have old := Nat.lt_of_lt_of_le (Arena.kind_bound found) sound.size
    rw [InferenceState.span_grown, if_neg (Nat.ne_of_lt old)]
    exact sound.rests found solid

theorem leaves_grown : Leaves (fun _ => False) state (state.grown kind type span) where
  size := by
    rw [InferenceState.size_grown]
    exact Nat.le_succ _
  node id old _ := by
    rw [InferenceState.node_grown, if_neg (Nat.ne_of_lt old)]
  span id old _ := by
    rw [InferenceState.span_grown, if_neg (Nat.ne_of_lt old)]
  bound _ inside _ _ := inside
  result := rfl
  diagnostics := List.prefix_refl _

/-- A node is added where its number has no span yet. -/
theorem yields_place {source : NodeId} (sound : Sound limit origin state)
    (found : state.span? source = some span) (type : Option Ty)
    {holds : PUnit → InferenceState → Prop} (met : holds ⟨⟩ (state.grown kind type span)) :
    Yields (onTree (SourceTree.onSpans (SpanTable.copy source ⟨state.size⟩)))
      (state.withArena ⟨state.tree.arena.nodes.push ⟨kind, type⟩⟩) holds := by
  rw [yields_on_tree, SourceTree.yields_on_spans]
  refine SpanTable.yields_copy found ?_ met
  cases recorded : state.span? ⟨state.size⟩ with
  | none => exact recorded
  | some other =>
      have bound := (sound.placed recorded).1
      exact absurd bound (Nat.lt_irrefl _)

theorem yields_add {source : NodeId} {holds : NodeId → InferenceState → Prop}
    (sound : Sound limit origin state) (found : state.span? source = some span)
    (met : holds ⟨state.size⟩ (state.grown kind (Arena.initialType kind) span)) :
    Yields (add kind source) state holds := by
  unfold add
  rw [yields_bind]
  change Yields (do
    onTree (SourceTree.onSpans (SpanTable.copy source ⟨state.size⟩))
    return (⟨state.size⟩ : NodeId))
    (state.withArena ⟨state.tree.arena.nodes.push ⟨kind, Arena.initialType kind⟩⟩) holds
  rw [yields_bind]
  exact yields_place sound found _ met

theorem yields_alloc_typed {image : Type} {next : NodeId → Inference image}
    {holds : image → InferenceState → Prop} (met : Yields (next ⟨state.size⟩)
      (state.withArena ⟨state.tree.arena.nodes.push ⟨kind, type⟩⟩) holds) :
    Yields (do
      let node ← onTree (SourceTree.alloc kind)
      setType node type
      next node) state holds := by
  rw [yields_bind]
  change Yields (do
    setType ⟨state.size⟩ type
    next ⟨state.size⟩) (state.withArena (state.tree.arena.alloc kind).2) holds
  rw [yields_bind, yields_set_type]
  change Yields _ (state.withArena
    ((state.tree.arena.alloc kind).2.setType ⟨state.tree.arena.size⟩ type)) holds
  rw [Arena.set_type_of_new]
  exact met

theorem yields_add_typed {source : NodeId} {holds : NodeId → InferenceState → Prop}
    (sound : Sound limit origin state) (found : state.span? source = some span)
    (met : holds ⟨state.size⟩ (state.grown kind type span)) :
    Yields (do
      let node ← onTree (SourceTree.alloc kind)
      setType node type
      onTree (SourceTree.onSpans (SpanTable.copy source node))
      return node) state holds := by
  refine yields_alloc_typed ?_
  rw [yields_bind]
  exact yields_place sound found _ met

theorem yields_add_type_ref {written : Ty} {source : NodeId}
    {holds : NodeId → InferenceState → Prop} (sound : Sound limit origin state)
    (found : state.span? source = some span)
    (met : holds ⟨state.size⟩ (state.spelled written span)) :
    Yields (addTypeRef written source) state holds := by
  unfold addTypeRef
  exact yields_add_typed sound found met

end Growing

/-- A step that leaves the tree as it is: it reports, or declares names for a few
nodes. -/
structure Noted (limit : Position) (origin : SourceTree) (changed : Region)
    (before after : InferenceState) : Prop where
  tree : after.tree = before.tree
  sound : Sound limit origin after
  leaves : Leaves changed before after

theorem Reported.noted {kind : DiagnosticKind} {before after : InferenceState}
    (reported : Reported limit origin kind before after) (changed : Region) :
    Noted limit origin changed before after :=
  ⟨reported.tree, reported.sound, reported.leaves.weaken fun _ => False.elim⟩

theorem Noted.weaken {changed other : Region} {before after : InferenceState}
    (noted : Noted limit origin changed before after) (subset : ∀ id, changed id → other id) :
    Noted limit origin other before after :=
  ⟨noted.tree, noted.sound, noted.leaves.weaken subset⟩

theorem Noted.trans {changed : Region} {before middle after : InferenceState}
    (first : Noted limit origin changed before middle)
    (second : Noted limit origin changed middle after) : Noted limit origin changed before after :=
  ⟨second.tree.trans first.tree, second.sound,
    first.leaves.trans second.leaves fun _ inside _ => inside⟩

/-- Only what is visible was changed. -/
theorem noted_of_scopes {changed : Region} {state after : InferenceState}
    (sound : Sound limit origin state) (tree : after.tree = state.tree)
    (result : after.result = state.result) (diagnostics : after.diagnostics = state.diagnostics)
    (bound : ∀ id ∈ after.scopes.nodes,
      id ∈ state.scopes.nodes ∨ changed id ∧ (state.span? id).isSome) :
    Noted limit origin changed state after := by
  have size : after.size = state.size := by
    unfold InferenceState.size
    rw [tree]
  have span : ∀ id, after.span? id = state.span? id := fun id => by
    unfold InferenceState.span?
    rw [tree]
  refine ⟨tree, ⟨?_, ?_, ?_, ?_, ?_⟩, ⟨Nat.le_of_eq size.symm, ?_, fun id _ _ => span id, ?_, result, ?_⟩⟩
  · rw [size]
    exact sound.size
  · intro id found recorded
    rw [span] at recorded
    rw [size]
    exact sound.placed recorded
  · intro id member
    rw [span]
    obtain old | ⟨-, known⟩ := bound id member
    · exact sound.bound id old
    · exact known
  · rw [diagnostics]
    exact sound.reported
  · intro id kind found solid
    exact (span id).trans (sound.rests found solid)
  · intro id _ _
    rw [tree]
  · intro id member _ apart
    exact (bound id member).resolve_right fun inside => apart inside.1
  · exact ⟨[], by rw [List.append_nil, diagnostics]⟩

theorem Settled.noted {changed region : Region} {before after : InferenceState}
    (settled : Settled origin results region before)
    (noted : Noted limit origin changed before after) :
    Settled origin results region after :=
  settled.of_same_tree noted.tree noted.leaves.clean

/-- A step that changes the kinds and types of a few nodes and adds others, which
it leaves settled together with a region. -/
structure Rewrites (limit : Position) (origin : SourceTree) (results : Option Ty → Prop)
    (changed region : Region) (before after : InferenceState) : Prop where
  sound : Sound limit origin after
  leaves : Leaves changed before after
  settled : Settled origin results (fun id => region id ∨ Made before after id) after
  spans : ∀ id, id.index < before.size → after.span? id = before.span? id

namespace Rewrites

variable {changed other region : Region} {before middle after : InferenceState}

theorem made_self {state : InferenceState} {id : NodeId} : ¬ Made state state id := by
  rintro ⟨lower, upper⟩
  omega

theorem refl (sound : Sound limit origin before)
    (settled : Settled origin results region before) :
    Rewrites limit origin results changed region before before where
  sound := sound
  leaves := .refl _ _
  settled := settled.congr fun _ => ⟨fun inside => inside.resolve_right made_self, Or.inl⟩
  spans _ _ := rfl

/-- A second step, which may also change what the first one added. -/
theorem trans (first : Rewrites limit origin results changed region before middle)
    (second : Rewrites limit origin results other
      (fun id => region id ∨ Made before middle id) middle after)
    (covered : ∀ id, other id → id.index < before.size → changed id) :
    Rewrites limit origin results changed region before after where
  sound := second.sound
  leaves := first.leaves.trans second.leaves covered
  settled := by
    refine second.settled.congr fun id => ?_
    rw [made_split first.leaves.size second.leaves.size]
    tauto
  spans id old :=
    (second.spans id (Nat.lt_of_lt_of_le old first.leaves.size)).trans (first.spans id old)

/-- A step that leaves the tree as it is rewrites nothing. -/
theorem of_noted (settled : Settled origin results region before)
    (noted : Noted limit origin changed before after) :
    Rewrites limit origin results changed region before after where
  sound := noted.sound
  leaves := noted.leaves
  settled := by
    refine (settled.noted noted).congr fun id => ⟨fun inside => inside.resolve_right ?_, Or.inl⟩
    unfold Made InferenceState.size
    rw [noted.tree]
    omega
  spans _ _ := by
    unfold InferenceState.span?
    rw [noted.tree]

theorem of_report {kind : DiagnosticKind} (settled : Settled origin results region before)
    (reported : Reported limit origin kind before after) :
    Rewrites limit origin results changed region before after :=
  .of_noted settled (reported.noted changed)

end Rewrites

/-- A node is added whose slots refer to a settled region. -/
theorem rewrites_grown {region : Region} {state : InferenceState} {kind : NodeKind NodeId}
    {type : Option Ty} {span : Span} (sound : Sound limit origin state)
    (settled : Settled origin results region state) (inside : span.stop ≤ limit)
    (fine : Fine origin results (state.grown kind type span) ⟨state.size⟩ type kind)
    (slots : ∀ child ∈ kind.children, region child) :
    Rewrites limit origin results (fun _ => False) region state (state.grown kind type span) where
  sound := sound_grown sound inside
  leaves := leaves_grown
  settled := by
    have grown : Leaves (fun _ => False) state (state.grown kind type span) := leaves_grown
    have kept := settled.later grown fun _ _ => id
    have own : (state.grown kind type span).type? ⟨state.size⟩ = type :=
      InferenceState.type_of_grown
    have fine : Fine origin results (state.grown kind type span) ⟨state.size⟩
        ((state.grown kind type span).type? ⟨state.size⟩) kind := by
      rw [own]
      exact fine
    refine (kept.insert fine slots).congr fun id => ?_
    unfold Made
    rw [InferenceState.size_grown]
    constructor
    · rintro (inside | ⟨lower, upper⟩)
      · exact Or.inr inside
      · exact Or.inl (NodeId.ext (by change id.index = state.size; omega))
    · rintro (rfl | inside)
      · exact Or.inr ⟨Nat.le_refl _, Nat.lt_succ_self _⟩
      · exact Or.inl inside
  spans id old := by rw [InferenceState.span_grown, if_neg (Nat.ne_of_lt old)]

section Storing

variable {state : InferenceState} {node : NodeId}

/-- Changing a single node of the arena. -/
theorem leaves_with_arena {arena : Arena} (size : arena.size = state.size)
    (same : ∀ id, id ≠ node → arena.node? id = state.tree.arena.node? id) :
    Leaves (fun id => id = node) state (state.withArena arena) where
  size := Nat.le_of_eq size.symm
  node id _ apart := same id apart
  span _ _ _ := rfl
  bound _ inside _ _ := inside
  result := rfl
  diagnostics := List.prefix_refl _

theorem sound_with_arena {arena : Arena} (sound : Sound limit origin state)
    (size : arena.size = state.size) : Sound limit origin (state.withArena arena) := by
  refine ⟨?_, ?_, sound.bound, sound.reported, sound.rests⟩
  · change origin.arena.size ≤ arena.size
    rw [size]
    exact sound.size
  · intro id span found
    change id.index < arena.size ∧ span.stop ≤ limit
    rw [size]
    exact sound.placed found

theorem rewrites_with_arena {region : Region} {arena : Arena} (sound : Sound limit origin state)
    (settled : Settled origin results region state) (outside : ¬ region node)
    (size : arena.size = state.size)
    (same : ∀ id, id ≠ node → arena.node? id = state.tree.arena.node? id) :
    Rewrites limit origin results (fun id => id = node) region state (state.withArena arena) where
  sound := sound_with_arena sound size
  leaves := leaves_with_arena size same
  settled := by
    have kept := settled.later (leaves_with_arena size same) fun id inside equal =>
      outside (equal ▸ inside)
    refine kept.congr fun id => ⟨fun inside => inside.resolve_right ?_, Or.inl⟩
    rintro ⟨lower, upper⟩
    change id.index < arena.size at upper
    omega
  spans _ _ := rfl

theorem rewrites_set_type {region : Region} (sound : Sound limit origin state)
    (settled : Settled origin results region state) (outside : ¬ region node) (type : Option Ty) :
    Rewrites limit origin results (fun id => id = node) region state
      (state.withArena (state.tree.arena.setType node type)) := by
  refine rewrites_with_arena sound settled outside (Arena.size_setType _ _ _) fun id apart => ?_
  rw [Arena.node_set_type, if_neg (Ne.symm apart)]

theorem rewrites_set_kind {region : Region} (sound : Sound limit origin state)
    (settled : Settled origin results region state) (outside : ¬ region node)
    (kind : NodeKind NodeId) :
    Rewrites limit origin results (fun id => id = node) region state
      (state.withArena (state.tree.arena.setKind node kind)) := by
  refine rewrites_with_arena sound settled outside (Arena.size_setKind _ _ _) fun id apart => ?_
  rw [Arena.node_set_kind, if_neg (Ne.symm apart)]

end Storing

/-- A node without children is added, of which nothing is asked. -/
theorem rewrites_leaf {region : Region} {state : InferenceState} {kind : NodeKind NodeId}
    {span : Span} (sound : Sound limit origin state) (settled : Settled origin results region state)
    (inside : span.stop ≤ limit) (type : Option Ty)
    (form : ∀ tree id, SourceTree.Added origin tree id kind) (leaf : kind.children = [])
    (free : ∀ types own, kind.Obeys types own results) :
    Rewrites limit origin results (fun _ => False) region state (state.grown kind type span) := by
  refine rewrites_grown sound settled inside
    ⟨InferenceState.kind_of_grown, .added sound.size (form _ _),
      SourceTree.joined_leaf (NodeKind.slots_of_leaf leaf), ?_, fun _ => free _ _⟩ ?_
  · simp [leaf]
  · simp [leaf]

end Inference

end ModuleLang
