import ModuleLang.Proofs.Typing.Weaving

/-!
Regions of a tree that is being checked. Work on some parsed nodes changes these
and the nodes below them, adds nodes, and leaves all others as they are. What it
leaves behind is settled: the nodes refer to each other only, were only rewritten
as inference rewrites, and obey their typing rules unless an error was reported.
Work on disjoint parts is put together with `Worked.append`.
-/

namespace ModuleLang.Inference

/-- Some of the nodes of a tree. -/
abbrev Region := NodeId → Prop

/-- The nodes that were added between two states. -/
def Made (before after : InferenceState) : Region :=
  fun id => before.size ≤ id.index ∧ id.index < after.size

theorem made_split {before middle after : InferenceState} (first : before.size ≤ middle.size)
    (second : middle.size ≤ after.size) {id : NodeId} :
    Made before after id ↔ Made before middle id ∨ Made middle after id := by
  unfold Made
  omega

/-- What always holds of a state: `limit` bounds all spans, and the nodes that
declare the visible names can be reported. -/
structure Sound (limit : Position) (origin : SourceTree) (state : InferenceState) : Prop where
  size : origin.arena.size ≤ state.size
  placed : ∀ {id span}, state.span? id = some span → id.index < state.size ∧ span.stop ≤ limit
  bound : ∀ id ∈ state.scopes.nodes, (state.span? id).isSome
  reported : ∀ found ∈ state.diagnostics, found.span.stop ≤ limit
  /-- Only a name loses its place in the text. -/
  rests : ∀ {id kind}, origin.arena.kind? id = some kind → (∀ name, kind ≠ .member name) →
    state.span? id = origin.spans.span? id

/-- The nodes of a region are still as they were parsed, and declare no name. -/
structure Untouched (origin : SourceTree) (region : Region) (state : InferenceState) : Prop where
  kind : ∀ id, region id → state.kind? id = origin.arena.kind? id
  span : ∀ id, region id → state.span? id = origin.spans.span? id
  unbound : ∀ id, region id → id ∉ state.scopes.nodes

/-- Nothing but a region was changed among the nodes that there were. -/
structure Leaves (region : Region) (before after : InferenceState) : Prop where
  size : before.size ≤ after.size
  node : ∀ id, id.index < before.size → ¬ region id →
    after.tree.arena.node? id = before.tree.arena.node? id
  span : ∀ id, id.index < before.size → ¬ region id → after.span? id = before.span? id
  bound : ∀ id ∈ after.scopes.nodes, id.index < before.size → ¬ region id →
    id ∈ before.scopes.nodes
  result : after.result = before.result
  diagnostics : before.diagnostics <+: after.diagnostics

namespace Leaves

variable {region other : Region} {before middle after : InferenceState}

theorem refl (region : Region) (state : InferenceState) : Leaves region state state :=
  ⟨Nat.le_refl _, fun _ _ _ => rfl, fun _ _ _ => rfl, fun _ inside _ _ => inside, rfl,
    List.prefix_refl _⟩

/-- The second change may concern nodes that the first one added. -/
theorem trans (first : Leaves region before middle) (second : Leaves other middle after)
    (covered : ∀ id, other id → id.index < before.size → region id) :
    Leaves region before after where
  size := Nat.le_trans first.size second.size
  node id old apart :=
    (second.node id (Nat.lt_of_lt_of_le old first.size) fun inside =>
      apart (covered id inside old)).trans (first.node id old apart)
  span id old apart :=
    (second.span id (Nat.lt_of_lt_of_le old first.size) fun inside =>
      apart (covered id inside old)).trans (first.span id old apart)
  bound id inside old apart :=
    first.bound id (second.bound id inside (Nat.lt_of_lt_of_le old first.size) fun changed =>
      apart (covered id changed old)) old apart
  result := second.result.trans first.result
  diagnostics := first.diagnostics.trans second.diagnostics

theorem weaken (leaves : Leaves region before after) (subset : ∀ id, region id → other id) :
    Leaves other before after :=
  (refl other before).trans leaves fun id inside _ => subset id inside

theorem clean (leaves : Leaves region before after) (clean : after.Clean) : before.Clean := by
  obtain ⟨more, same⟩ := leaves.diagnostics
  unfold InferenceState.Clean Diagnostic.hasErrors at *
  rw [← same, List.any_append, Bool.or_eq_false_iff] at clean
  exact clean.1

end Leaves

theorem Untouched.later {origin : SourceTree} {region changed : Region}
    {before after : InferenceState} (untouched : Untouched origin region before)
    (leaves : Leaves changed before after) (old : ∀ id, region id → id.index < before.size)
    (apart : ∀ id, region id → ¬ changed id) : Untouched origin region after where
  kind id inside :=
    (Arena.kind_of_node (leaves.node id (old id inside) (apart id inside))).trans
      (untouched.kind id inside)
  span id inside :=
    (leaves.span id (old id inside) (apart id inside)).trans (untouched.span id inside)
  unbound id inside bound :=
    untouched.unbound id inside (leaves.bound id bound (old id inside) (apart id inside))

theorem Untouched.part {origin : SourceTree} {region part : Region} {state : InferenceState}
    (untouched : Untouched origin region state) (subset : ∀ id, part id → region id) :
    Untouched origin part state where
  kind id inside := untouched.kind id (subset id inside)
  span id inside := untouched.span id (subset id inside)
  unbound id inside := untouched.unbound id (subset id inside)

/-- A node that inference is done with. `own` is the type that it has or is
given next. -/
structure Fine (origin : SourceTree) (results : Option Ty → Prop) (state : InferenceState)
    (id : NodeId) (own : Option Ty) (kind : NodeKind NodeId) : Prop where
  found : state.kind? id = some kind
  traced : SourceTree.Traced origin state.tree id kind
  joined : SourceTree.Joined origin state.tree id kind
  spanned : ∀ child ∈ kind.children, (state.span? child).isSome
  obeys : state.Clean → kind.Obeys state.type? own results

/-- All nodes of a region are done with, and refer to nodes of the region. -/
def Settled (origin : SourceTree) (results : Option Ty → Prop) (region : Region)
    (state : InferenceState) : Prop :=
  ∀ id, region id → ∃ kind, Fine origin results state id (state.type? id) kind ∧
    ∀ child ∈ kind.children, region child

variable {limit : Position} {origin : SourceTree} {results : Option Ty → Prop}

theorem Fine.later {changed : Region} {before after : InferenceState} {id : NodeId}
    {own : Option Ty} {kind : NodeKind NodeId} (fine : Fine origin results before id own kind)
    (leaves : Leaves changed before after) (apart : ¬ changed id)
    (slots : ∀ child ∈ kind.children, child.index < before.size ∧ ¬ changed child) :
    Fine origin results after id own kind where
  found := by
    have same := leaves.node id (Arena.kind_bound fine.found) apart
    exact (Arena.kind_of_node same).trans fine.found
  traced := by
    have old := Arena.kind_bound fine.found
    refine SourceTree.traced_of_same (leaves.node id old apart) (leaves.span id old apart) ?_
      fine.traced
    intro child inside
    obtain ⟨bound, away⟩ := slots child inside
    exact ⟨leaves.node child bound away, leaves.span child bound away⟩
  joined := by
    have old := Arena.kind_bound fine.found
    refine SourceTree.joined_of_same (leaves.span id old apart) ?_ fine.joined
    intro child inside
    obtain ⟨bound, away⟩ := slots child inside
    exact leaves.span child bound away
  spanned := by
    intro child inside
    obtain ⟨bound, away⟩ := slots child inside
    rw [leaves.span child bound away]
    exact fine.spanned child inside
  obeys := by
    intro clean
    refine NodeKind.obeys_of_same_types ?_ (fine.obeys (leaves.clean clean))
    intro child inside
    obtain ⟨bound, away⟩ := slots child inside
    exact Arena.type_of_node (leaves.node child bound away)

/-- What is done with stays so while the tree stays and no report is taken back. -/
theorem Fine.of_same_tree {before after : InferenceState} {id : NodeId} {own : Option Ty}
    {kind : NodeKind NodeId} (fine : Fine origin results before id own kind)
    (tree : after.tree = before.tree) (cleaner : after.Clean → before.Clean) :
    Fine origin results after id own kind where
  found := by
    unfold InferenceState.kind?
    rw [tree]
    exact fine.found
  traced := by
    rw [tree]
    exact fine.traced
  joined := by
    rw [tree]
    exact fine.joined
  spanned := by
    unfold InferenceState.span?
    rw [tree]
    exact fine.spanned
  obeys clean := by
    unfold InferenceState.type?
    rw [tree]
    exact fine.obeys (cleaner clean)

namespace Settled

variable {region other : Region} {before after state : InferenceState}

theorem of_same_tree (settled : Settled origin results region before)
    (tree : after.tree = before.tree) (cleaner : after.Clean → before.Clean) :
    Settled origin results region after := by
  intro id inside
  obtain ⟨kind, fine, closed⟩ := settled id inside
  refine ⟨kind, ?_, closed⟩
  have same : after.type? id = before.type? id := by
    unfold InferenceState.type?
    rw [tree]
  rw [same]
  exact fine.of_same_tree tree cleaner

theorem bounded (settled : Settled origin results region state) {id : NodeId}
    (inside : region id) : id.index < state.size := by
  obtain ⟨kind, fine, -⟩ := settled id inside
  exact Arena.kind_bound fine.found

/-- Work elsewhere leaves a region settled. -/
theorem later (settled : Settled origin results region before) (leaves : Leaves other before after)
    (apart : ∀ id, region id → ¬ other id) : Settled origin results region after := by
  intro id inside
  obtain ⟨kind, fine, closed⟩ := settled id inside
  have same := Arena.type_of_node (leaves.node id (settled.bounded inside) (apart id inside))
  refine ⟨kind, ?_, closed⟩
  unfold InferenceState.type?
  rw [same]
  refine fine.later leaves (apart id inside) fun child slot => ?_
  exact ⟨settled.bounded (closed child slot), apart child (closed child slot)⟩

theorem union (first : Settled origin results region state)
    (second : Settled origin results other state) :
    Settled origin results (fun id => region id ∨ other id) state := by
  rintro id (inside | inside)
  · obtain ⟨kind, fine, closed⟩ := first id inside
    exact ⟨kind, fine, fun child slot => Or.inl (closed child slot)⟩
  · obtain ⟨kind, fine, closed⟩ := second id inside
    exact ⟨kind, fine, fun child slot => Or.inr (closed child slot)⟩

theorem congr (settled : Settled origin results region state) (same : ∀ id, other id ↔ region id) :
    Settled origin results other state := by
  intro id inside
  obtain ⟨kind, fine, closed⟩ := settled id ((same id).mp inside)
  exact ⟨kind, fine, fun child slot => (same child).mpr (closed child slot)⟩

/-- A node whose slots refer to a settled region can be counted in. -/
theorem insert (settled : Settled origin results region state) {node : NodeId}
    {kind : NodeKind NodeId} (fine : Fine origin results state node (state.type? node) kind)
    (slots : ∀ child ∈ kind.children, region child) :
    Settled origin results (fun id => id = node ∨ region id) state := by
  rintro id (rfl | inside)
  · exact ⟨kind, fine, fun child slot => Or.inr (slots child slot)⟩
  · obtain ⟨kind, fine, closed⟩ := settled id inside
    exact ⟨kind, fine, fun child slot => Or.inr (closed child slot)⟩

theorem fewer_results {fewer : Option Ty → Prop} (settled : Settled origin results region state)
    (subset : state.Clean → ∀ result, fewer result → results result) :
    Settled origin fewer region state := by
  intro id inside
  obtain ⟨kind, fine, closed⟩ := settled id inside
  refine ⟨kind, ⟨fine.found, fine.traced, fine.joined, fine.spanned, fun clean => ?_⟩, closed⟩
  exact NodeKind.obeys_of_fewer_results (subset clean) (fine.obeys clean)

/-- All that lies below a node of a settled region belongs to it. -/
theorem reachable (settled : Settled origin results region state) {node id : NodeId}
    (inside : region node) (below : state.tree.arena.Reachable node id) : region id := by
  induction below with
  | refl => exact inside
  | tail _ slot ih =>
      obtain ⟨kind, fine, closed⟩ := settled _ ih
      rw [Arena.children_of_kind fine.found] at slot
      exact closed _ slot

end Settled

/-- The parsed nodes below some nodes. -/
def Below (origin : SourceTree) (nodes : List NodeId) : Region :=
  fun id => ∃ node ∈ nodes, origin.arena.Reachable node id

/-- What is settled once the work on some parsed nodes is done. -/
def Covered (origin : SourceTree) (done : List NodeId) (before after : InferenceState) : Region :=
  fun id => Below origin done id ∨ Made before after id

/-- The work on some parsed nodes, from one state to another. -/
structure Worked (limit : Position) (origin : SourceTree) (results : Option Ty → Prop)
    (done : List NodeId) (before after : InferenceState) : Prop where
  sound : Sound limit origin after
  leaves : Leaves (Below origin done) before after
  settled : Settled origin results (Covered origin done before after) after
  spans : ∀ node ∈ done, after.span? node = origin.spans.span? node

namespace Worked

variable {done more : List NodeId} {before middle after : InferenceState}

theorem nil (results : Option Ty → Prop) (sound : Sound limit origin before) :
    Worked limit origin results [] before before where
  sound := sound
  leaves := .refl _ _
  settled := by
    rintro id (⟨node, inside, -⟩ | ⟨lower, upper⟩)
    · cases inside
    · omega
  spans := by
    intro node inside
    cases inside

theorem below_append {id : NodeId} :
    Below origin (done ++ more) id ↔ Below origin done id ∨ Below origin more id := by
  simp only [Below, List.mem_append, or_and_right, exists_or]

/-- The order of the nodes does not matter. -/
theorem reorder (work : Worked limit origin results done before after) (same : done.Perm more) :
    Worked limit origin results more before after := by
  have below : ∀ id, Below origin more id ↔ Below origin done id := by
    intro id
    simp only [Below, same.mem_iff]
  refine ⟨work.sound, work.leaves.weaken fun id inside => (below id).mpr inside, ?_, ?_⟩
  · refine work.settled.congr fun id => ?_
    unfold Covered
    rw [below]
  · intro node member
    exact work.spans node (same.mem_iff.mpr member)

/-- Work on other parsed nodes may follow. -/
theorem append (start : Sound limit origin before)
    (first : Worked limit origin results done before middle)
    (second : Worked limit origin results more middle after)
    (old : ∀ id, Below origin more id → id.index < origin.arena.size)
    (apart : ∀ id, Below origin done id → ¬ Below origin more id) :
    Worked limit origin results (done ++ more) before after where
  sound := second.sound
  leaves := by
    have left : Leaves (Below origin (done ++ more)) before middle :=
      first.leaves.weaken fun id inside => below_append.mpr (Or.inl inside)
    exact left.trans second.leaves fun id inside _ => below_append.mpr (Or.inr inside)
  settled := by
    have kept : Settled origin results (Covered origin done before middle) after := by
      refine first.settled.later second.leaves ?_
      rintro id (inside | ⟨lower, -⟩) other
      · exact apart id inside other
      · have bound := old id other
        have size := start.size
        omega
    refine (kept.union second.settled).congr fun id => ?_
    unfold Covered
    rw [below_append, made_split first.leaves.size second.leaves.size]
    tauto
  spans := by
    intro node inside
    obtain inside | inside := List.mem_append.mp inside
    · have below : Below origin done node := ⟨node, inside, .refl⟩
      have bound := first.settled.bounded (Or.inl below)
      rw [second.leaves.span node bound (apart node below)]
      exact first.spans node inside
    · exact second.spans node inside

end Worked

end ModuleLang.Inference
