import Std.Data.TreeMap.Lemmas
import ModuleLang.Proofs.Tree.Forest
import ModuleLang.Proofs.Tree.Slots
import ModuleLang.Proofs.Yields

/-!
The span table through look-ups: what is found for a node after a span was
recorded, copied or moved, and when these actions succeed.
-/

namespace ModuleLang

namespace SpanTable

theorem span_insert (table : SpanTable) (node other : NodeId) (span : Span) :
    (table.insert node span).span? other = if node = other then some span else table.span? other := by
  unfold span? insert
  rw [Std.TreeMap.getElem?_insert]
  by_cases same : node = other
  · simp [same]
  · have different : node.index ≠ other.index := fun equal => same (NodeId.ext equal)
    simp [same, different]

theorem span_erase (table : SpanTable) (node other : NodeId) :
    (table.erase node).span? other = if node = other then none else table.span? other := by
  unfold span? erase
  rw [Std.TreeMap.getElem?_erase]
  by_cases same : node = other
  · simp [same]
  · have different : node.index ≠ other.index := fun equal => same (NodeId.ext equal)
    simp [same, different]

theorem contains_iff (table : SpanTable) (node : NodeId) :
    table.contains node = (table.span? node).isSome := by
  unfold contains span?
  rw [Std.TreeMap.contains_eq_isSome_getElem?]

theorem span_of_found {table : SpanTable} {node : NodeId} {found : Span}
    (recorded : table.span? node = some found) : table.span node = .ok found := by
  simp [span, recorded]

/-- A span is recorded for a node that has none. -/
theorem yields_add {node : NodeId} {span : Span} {table : SpanTable}
    {holds : PUnit → SpanTable → Prop} (new : table.span? node = none)
    (met : holds ⟨⟩ (table.insert node span)) : Yields (add node span) table holds := by
  unfold add
  rw [yields_bind, yields_get]
  have absent : table.contains node = false := by simp [contains_iff, new]
  rw [absent]
  exact met

theorem yields_copy {source target : NodeId} {span : Span} {table : SpanTable}
    {holds : PUnit → SpanTable → Prop} (known : table.span? source = some span)
    (new : table.span? target = none) (met : holds ⟨⟩ (table.insert target span)) :
    Yields (copy source target) table holds := by
  unfold copy
  rw [yields_bind, yields_get, known]
  exact yields_add new met

theorem yields_move {old new : NodeId} {span : Span} {table : SpanTable}
    {holds : PUnit → SpanTable → Prop} (known : table.span? old = some span)
    (absent : table.span? new = none)
    (met : holds ⟨⟩ ((table.erase old).insert new span)) :
    Yields (move old new) table holds := by
  unfold move
  rw [yields_bind, yields_get, known]
  change Yields (modify (fun table => table.erase old) >>= fun _ => add new span) table holds
  rw [yields_bind, yields_modify]
  refine yields_add ?_ met
  rw [span_erase]
  split
  · rfl
  · exact absent

/-- A diagnostic at a node that has a span. -/
theorem report_of_span {table : SpanTable} {node : NodeId} {span : Span}
    (known : table.span? node = some span) (fileName : String) (kind : DiagnosticKind) :
    table.report fileName node kind = .ok ⟨kind, span, fileName⟩ := by
  unfold report
  rw [span_of_found known]
  rfl

end SpanTable

/-!
Trees that are built from the leaves up. A node is created once the nodes of its
slots exist, none of which has another parent, and its span covers theirs. What
was built before is never touched. `Builds` is about the nodes that are built
and wait for their parent; `yields_create` gives them one.
-/

/-- A node of the arena that may stand in slots of a category. -/
def Arena.Admitted (arena : Arena) (category : Category) (id : NodeId) : Prop :=
  ∃ kind, arena.kind? id = some kind ∧ category.admits kind = true

namespace NodeKind

variable {slot : Type}

/-- Whether a node is the root of a module. -/
def isRoot : NodeKind slot → Bool
  | root .. => true
  | _ => false

end NodeKind

namespace SourceTree

/-- The span of `inner` lies in that of `outer`. -/
def Within (tree : SourceTree) (inner outer : NodeId) : Prop :=
  ∀ first second, tree.spans.span? inner = some first → tree.spans.span? outer = some second →
    second.start ≤ first.start ∧ first.stop ≤ second.stop

/-- `first` is older than `second` and ends before it starts. -/
def Precedes (tree : SourceTree) (first second : NodeId) : Prop :=
  first.index < second.index ∧ ∀ left right, tree.spans.span? first = some left →
    tree.spans.span? second = some right → left.stop ≤ right.start

/-- Items of a module of which those of one kind come in source order. -/
structure Rows (tree : SourceTree) (modules imports functions : List NodeId) : Prop where
  modules : modules.Pairwise tree.Precedes
  imports : imports.Pairwise tree.Precedes
  functions : functions.Pairwise tree.Precedes

/-- A node stands for some of the text. -/
def Filled (tree : SourceTree) (id : NodeId) : Prop :=
  ∀ span, tree.spans.span? id = some span → span.start < span.stop

/-- What holds of a tree that was built from the leaves up. -/
structure Constructed (limit : Position) (tree : SourceTree) : Prop where
  recorded : ∀ id, (tree.spans.span? id).isSome ↔ id.index < tree.arena.size
  bounded : ∀ {id span}, tree.spans.span? id = some span → span.stop ≤ limit
  forest : tree.arena.Forest
  admitted : ∀ {id kind}, tree.arena.kind? id = some kind →
    ∀ slot ∈ kind.slots, tree.arena.Admitted slot.1 slot.2
  covered : ∀ {parent child}, child ∈ tree.arena.children parent → tree.Within child parent
  /-- Children of nodes other than the root come in source order. -/
  ordered : ∀ {id kind}, tree.arena.kind? id = some kind → kind.isRoot = false →
    kind.children.Pairwise tree.Precedes
  /-- No cast has noted a source. -/
  unsourced : ∀ {id kind}, tree.arena.kind? id = some kind → kind.unsourced = kind
  /-- Only bodies may be empty, where they are missing in the text. -/
  filled : ∀ {id kind}, tree.arena.kind? id = some kind →
    ∀ slot ∈ kind.slots, slot.1 ≠ .body → tree.Filled slot.2

theorem constructed_empty (limit : Position) : empty.Constructed limit := by
  have none : ∀ id, empty.arena.kind? id = none := fun id => by
    simp [empty, Arena.empty, Arena.kind?, Arena.node?]
  have childless : ∀ id, empty.arena.children id = [] := fun id => by
    simp [Arena.children, none]
  refine ⟨?_, ?_, ⟨?_, ?_, ?_⟩, ?_, ?_, ?_, ?_, ?_⟩
  · intro id
    simp [empty, SpanTable.empty, SpanTable.span?, Arena.empty, Arena.size]
  · intro id span found
    simp [empty, SpanTable.empty, SpanTable.span?] at found
  · intro parent child inside
    simp [childless] at inside
  · intro parent
    simp [childless]
  · intro first second child inside
    simp [childless] at inside
  · intro id kind found
    simp [none] at found
  · intro parent child inside
    simp [childless] at inside
  · intro id kind found
    simp [none] at found
  · intro id kind found
    simp [none] at found
  · intro id kind found
    simp [none] at found

/-- One tree was built further into another. New nodes refer to new nodes. -/
structure Extends (before after : SourceTree) : Prop where
  size : before.arena.size ≤ after.arena.size
  node : ∀ id, id.index < before.arena.size → after.arena.node? id = before.arena.node? id
  span : ∀ id, id.index < before.arena.size → after.spans.span? id = before.spans.span? id
  fresh : ∀ {parent child}, child ∈ after.arena.children parent →
    before.arena.size ≤ parent.index → before.arena.size ≤ child.index

namespace Extends

theorem refl (tree : SourceTree) : tree.Extends tree where
  size := Nat.le_refl _
  node _ _ := rfl
  span _ _ := rfl
  fresh := by
    intro parent child inside bound
    obtain ⟨kind, found, -⟩ := Arena.kind_of_child inside
    have := Arena.kind_bound found
    omega

theorem children {before after : SourceTree} (extends' : before.Extends after) {id : NodeId}
    (old : id.index < before.arena.size) : after.arena.children id = before.arena.children id := by
  unfold Arena.children
  rw [Arena.kind_of_node (extends'.node id old)]

theorem trans {first second third : SourceTree} (left : first.Extends second)
    (right : second.Extends third) : first.Extends third where
  size := Nat.le_trans left.size right.size
  node id old := (right.node id (Nat.lt_of_lt_of_le old left.size)).trans (left.node id old)
  span id old := (right.span id (Nat.lt_of_lt_of_le old left.size)).trans (left.span id old)
  fresh := by
    intro parent child inside new
    by_cases middle : parent.index < second.arena.size
    · rw [right.children middle] at inside
      exact left.fresh inside new
    · exact Nat.le_trans left.size (right.fresh inside (Nat.le_of_not_lt middle))

theorem kind {before after : SourceTree} (extends' : before.Extends after) {id : NodeId}
    {kind : NodeKind NodeId} (found : before.arena.kind? id = some kind) :
    after.arena.kind? id = some kind := by
  rw [Arena.kind_of_node (extends'.node id (Arena.kind_bound found))]
  exact found

theorem admitted {before after : SourceTree} (extends' : before.Extends after)
    {category : Category} {id : NodeId} (fits : before.arena.Admitted category id) :
    after.arena.Admitted category id := by
  obtain ⟨kind, found, admits⟩ := fits
  exact ⟨kind, extends'.kind found, admits⟩

end Extends

/-- A node that was built after the arena had `origin` nodes and waits for its
parent. Its span lies between two positions. -/
structure Waits (origin : Nat) (tree : SourceTree) (lower upper : Position) (id : NodeId) :
    Prop where
  new : origin ≤ id.index
  orphan : ∀ parent, id ∉ tree.arena.children parent
  placed : ∃ span, tree.spans.span? id = some span ∧ lower ≤ span.start ∧ span.stop ≤ upper

theorem Waits.later {origin : Nat} {before after : SourceTree} {lower upper higher : Position}
    {id : NodeId} (waits : before.Waits origin lower upper id)
    (old : id.index < before.arena.size) (extends' : before.Extends after)
    (order : upper ≤ higher) : after.Waits origin lower higher id where
  new := waits.new
  orphan := by
    intro parent inside
    by_cases known : parent.index < before.arena.size
    · rw [extends'.children known] at inside
      exact waits.orphan parent inside
    · have := extends'.fresh inside (Nat.le_of_not_lt known)
      omega
  placed := by
    obtain ⟨span, found, start, stop⟩ := waits.placed
    exact ⟨span, (extends'.span id old).trans found, start, Position.le_trans stop order⟩

/-- Nodes that wait for a parent, with the slots that they are meant for, in
source order. -/
structure Builds (origin : Nat) (tree : SourceTree) (lower upper : Position)
    (slots : List (Category × NodeId)) : Prop where
  each : ∀ slot ∈ slots, tree.Waits origin lower upper slot.2 ∧ tree.arena.Admitted slot.1 slot.2
  filled : ∀ slot ∈ slots, slot.1 ≠ .body → tree.Filled slot.2
  apart : slots.Pairwise fun first second => tree.Precedes first.2 second.2

namespace Builds

theorem nil (origin : Nat) (tree : SourceTree) (lower upper : Position) :
    Builds origin tree lower upper [] :=
  ⟨by simp, by simp, .nil⟩

theorem bound {origin : Nat} {tree : SourceTree} {lower upper : Position}
    {slots : List (Category × NodeId)} (built : Builds origin tree lower upper slots)
    {slot : Category × NodeId} (inside : slot ∈ slots) : slot.2.index < tree.arena.size := by
  obtain ⟨kind, found, -⟩ := (built.each slot inside).2
  exact Arena.kind_bound found

theorem later {origin : Nat} {before after : SourceTree} {lower upper higher : Position}
    {slots : List (Category × NodeId)} (built : Builds origin before lower upper slots)
    (extends' : before.Extends after) (order : upper ≤ higher) :
    Builds origin after lower higher slots where
  each slot inside :=
    ⟨(built.each slot inside).1.later (built.bound inside) extends' order,
      extends'.admitted (built.each slot inside).2⟩
  filled slot inside solid span found := by
    rw [extends'.span _ (built.bound inside)] at found
    exact built.filled slot inside solid span found
  apart := by
    refine List.Pairwise.imp_of_mem ?_ built.apart
    intro first second left right precedes
    refine ⟨precedes.1, ?_⟩
    rw [extends'.span _ (built.bound left), extends'.span _ (built.bound right)]
    exact precedes.2

theorem weaken {origin earlier : Nat} {tree : SourceTree} {lower lowest upper : Position}
    {slots : List (Category × NodeId)} (built : Builds origin tree lower upper slots)
    (older : earlier ≤ origin) (order : lowest ≤ lower) :
    Builds earlier tree lowest upper slots where
  each slot inside := by
    obtain ⟨⟨new, orphan, span, found, start, stop⟩, admitted⟩ := built.each slot inside
    exact ⟨⟨Nat.le_trans older new, orphan, span, found, Position.le_trans order start, stop⟩,
      admitted⟩
  filled := built.filled
  apart := built.apart

/-- Nodes that are built after others come behind them. -/
theorem append {origin middle : Nat} {before after : SourceTree}
    {lower upper lower' upper' : Position} {first second : List (Category × NodeId)}
    (left : Builds origin before lower upper first) (extends' : before.Extends after)
    (right : Builds middle after lower' upper' second) (older : origin ≤ middle)
    (between : before.arena.size ≤ middle) (order : lower ≤ lower') (apart : upper ≤ lower')
    (higher : upper ≤ upper') : Builds origin after lower upper' (first ++ second) where
  each slot inside := by
    obtain inside | inside := List.mem_append.mp inside
    · exact (left.later extends' higher).each slot inside
    · exact (right.weaken older order).each slot inside
  filled slot inside solid := by
    obtain inside | inside := List.mem_append.mp inside
    · exact (left.later extends' higher).filled slot inside solid
    · exact right.filled slot inside solid
  apart := by
    rw [List.pairwise_append]
    refine ⟨(left.later extends' higher).apart, right.apart, ?_⟩
    intro earlier inside later also
    refine ⟨?_, ?_⟩
    · exact Nat.lt_of_lt_of_le (left.bound inside)
        (Nat.le_trans between (right.each later also).1.new)
    · intro span other found otherFound
      obtain ⟨known, place, -, stop⟩ := (left.each earlier inside).1.placed
      obtain ⟨otherKnown, otherPlace, start, -⟩ := (right.each later also).1.placed
      rw [extends'.span _ (left.bound inside), place] at found
      rw [otherPlace] at otherFound
      cases found
      cases otherFound
      exact Position.le_trans stop (Position.le_trans apart start)

theorem nodup {origin : Nat} {tree : SourceTree} {lower upper : Position}
    {slots : List (Category × NodeId)} (built : Builds origin tree lower upper slots) :
    (slots.map Prod.snd).Nodup := by
  unfold List.Nodup
  rw [List.pairwise_map]
  refine built.apart.imp ?_
  intro first second precedes same
  have := precedes.1
  rw [same] at this
  omega

end Builds

/-- The tree with one more node. -/
def grown (tree : SourceTree) (kind : NodeKind NodeId) (span : Span) : SourceTree :=
  ⟨(tree.arena.alloc kind).2, tree.spans.insert ⟨tree.arena.size⟩ span⟩

section Grown

variable {tree : SourceTree} {kind : NodeKind NodeId} {span : Span}

theorem size_grown : (tree.grown kind span).arena.size = tree.arena.size + 1 :=
  Arena.size_alloc tree.arena kind

theorem kind_grown (id : NodeId) : (tree.grown kind span).arena.kind? id =
    if id.index = tree.arena.size then some kind else tree.arena.kind? id :=
  Arena.kind_alloc tree.arena kind id

theorem span_grown (id : NodeId) : (tree.grown kind span).spans.span? id =
    if id.index = tree.arena.size then some span else tree.spans.span? id := by
  unfold grown
  rw [SpanTable.span_insert]
  by_cases same : id.index = tree.arena.size
  · rw [if_pos same, if_pos (show (⟨tree.arena.size⟩ : NodeId) = id from NodeId.ext same.symm)]
  · rw [if_neg same, if_neg fun equal => same (congrArg NodeId.index equal.symm)]

theorem children_grown (id : NodeId) : (tree.grown kind span).arena.children id =
    if id.index = tree.arena.size then kind.children else tree.arena.children id := by
  unfold Arena.children
  rw [kind_grown]
  split <;> rfl

/-- The order of what was there is kept. -/
theorem Precedes.grown {first second : NodeId} (precedes : tree.Precedes first second)
    (left : first.index < tree.arena.size) (right : second.index < tree.arena.size) :
    (tree.grown kind span).Precedes first second := by
  refine ⟨precedes.1, ?_⟩
  rw [span_grown, span_grown, if_neg (Nat.ne_of_lt left), if_neg (Nat.ne_of_lt right)]
  exact precedes.2

/-- A tree extends another one still when its new node refers to new nodes. -/
theorem extends_grown {origin : SourceTree} (extends' : origin.Extends tree)
    (new : ∀ child ∈ kind.children, origin.arena.size ≤ child.index) :
    origin.Extends (tree.grown kind span) where
  size := by
    rw [size_grown]
    exact Nat.le_succ_of_le extends'.size
  node id old := by
    have different : id.index ≠ tree.arena.size :=
      Nat.ne_of_lt (Nat.lt_of_lt_of_le old extends'.size)
    rw [← extends'.node id old]
    exact (Arena.node?_alloc tree.arena kind id).trans (if_neg different)
  span id old := by
    rw [span_grown, if_neg (Nat.ne_of_lt (Nat.lt_of_lt_of_le old extends'.size))]
    exact extends'.span id old
  fresh := by
    intro parent child inside bound
    rw [children_grown] at inside
    split at inside
    · exact new child inside
    · exact extends'.fresh inside bound

end Grown

/-- A node whose slots are filled with nodes that wait for a parent may be
created. -/
theorem constructed_grown {limit : Position} {tree : SourceTree} {origin : Nat}
    {lower upper : Position} {kind : NodeKind NodeId} {span : Span}
    {slots : List (Category × NodeId)} (constructed : tree.Constructed limit)
    (built : Builds origin tree lower upper slots) (fills : slots.Perm kind.slots)
    (inOrder : kind.isRoot = false → slots = kind.slots) (starts : span.start ≤ lower)
    (covers : upper ≤ span.stop) (inside : span.stop ≤ limit) (plain : kind.unsourced = kind) :
    (tree.grown kind span).Constructed limit := by
  have waiting : ∀ child ∈ kind.children,
      tree.Waits origin lower upper child ∧ child.index < tree.arena.size := by
    intro child member
    obtain ⟨category, slot⟩ := NodeKind.child_has_slot member
    have slot := fills.mem_iff.mpr slot
    exact ⟨(built.each _ slot).1, built.bound slot⟩
  have distinct : kind.children.Nodup := by
    rw [← NodeKind.slots_are_children]
    exact (fills.map Prod.snd).nodup_iff.mp built.nodup
  have childOld : ∀ {parent child}, child ∈ (tree.grown kind span).arena.children parent →
      child.index < tree.arena.size := by
    intro parent child member
    rw [children_grown] at member
    split at member
    · exact (waiting child member).2
    · obtain ⟨parentKind, found, -⟩ := Arena.kind_of_child member
      exact Nat.lt_trans (constructed.forest.below member) (Arena.kind_bound found)
  have parentOld : ∀ {parent child}, child ∈ tree.arena.children parent →
      parent.index < tree.arena.size := by
    intro parent child member
    obtain ⟨parentKind, found, -⟩ := Arena.kind_of_child member
    exact Arena.kind_bound found
  have spanOld : ∀ {id}, id.index < tree.arena.size →
      (tree.grown kind span).spans.span? id = tree.spans.span? id := by
    intro id old
    rw [span_grown, if_neg (Nat.ne_of_lt old)]
  have admittedOld : ∀ {category id}, tree.arena.Admitted category id →
      (tree.grown kind span).arena.Admitted category id := by
    intro category id ⟨found, known, admits⟩
    refine ⟨found, ?_, admits⟩
    rw [kind_grown, if_neg (Nat.ne_of_lt (Arena.kind_bound known))]
    exact known
  have filledOld : ∀ {id}, id.index < tree.arena.size → tree.Filled id →
      (tree.grown kind span).Filled id := by
    intro id old filled other found
    rw [spanOld old] at found
    exact filled other found
  refine ⟨?_, ?_, ⟨?_, ?_, ?_⟩, ?_, ?_, ?_, ?_, ?_⟩
  · intro id
    rw [span_grown, size_grown]
    have recorded := constructed.recorded id
    split
    · simp
      omega
    · rw [recorded]
      omega
  · intro id other found
    rw [span_grown] at found
    split at found
    · cases found
      exact inside
    · exact constructed.bounded found
  · intro parent child member
    have old := childOld member
    rw [children_grown] at member
    split at member
    · omega
    · exact constructed.forest.below member
  · intro parent
    rw [children_grown]
    split
    · exact distinct
    · exact constructed.forest.distinct parent
  · intro first second child left right
    rw [children_grown] at left right
    split at left <;> split at right
    · exact NodeId.ext (by omega)
    · exact absurd right ((waiting child left).1.orphan second)
    · exact absurd left ((waiting child right).1.orphan first)
    · exact constructed.forest.single left right
  · intro id found known slot member
    rw [kind_grown] at known
    split at known
    · cases known
      exact admittedOld (built.each slot (fills.mem_iff.mpr member)).2
    · exact admittedOld (constructed.admitted known slot member)
  · intro parent child member first second found other
    have old := childOld member
    rw [spanOld old] at found
    rw [children_grown] at member
    rw [span_grown] at other
    split at member
    · rw [if_pos ‹_›] at other
      cases other
      obtain ⟨place, known, start, stop⟩ := (waiting child member).1.placed
      rw [known] at found
      cases found
      exact ⟨Position.le_trans starts start, Position.le_trans stop covers⟩
    · rw [if_neg ‹_›] at other
      exact constructed.covered member first second found other
  · intro id found known notRoot
    rw [kind_grown] at known
    split at known
    · cases known
      rw [← NodeKind.slots_are_children, ← inOrder notRoot, List.pairwise_map]
      refine List.Pairwise.imp_of_mem ?_ built.apart
      intro first second left right precedes
      exact precedes.grown (built.bound left) (built.bound right)
    · refine List.Pairwise.imp_of_mem ?_ (constructed.ordered known notRoot)
      intro first second left right precedes
      rw [← Arena.children_of_kind known] at left right
      exact precedes.grown (Nat.lt_trans (constructed.forest.below left) (parentOld left))
        (Nat.lt_trans (constructed.forest.below right) (parentOld right))
  · intro id found known
    rw [kind_grown] at known
    split at known
    · cases known
      exact plain
    · exact constructed.unsourced known
  · intro id found known slot member solid
    rw [kind_grown] at known
    split at known
    · cases known
      have member := fills.mem_iff.mpr member
      exact filledOld (built.bound member) (built.filled slot member solid)
    · obtain ⟨inner, before, -⟩ := constructed.admitted known slot member
      exact filledOld (Arena.kind_bound before) (constructed.filled known slot member solid)

/-- The node that is created waits for a parent in turn. -/
theorem waits_grown {limit : Position} {tree : SourceTree} {kind : NodeKind NodeId} {span : Span}
    {origin : Nat} {upper : Position} (constructed : tree.Constructed limit)
    (older : origin ≤ tree.arena.size) (known : ∀ child ∈ kind.children, child.index < tree.arena.size)
    (ends : span.stop ≤ upper) :
    (tree.grown kind span).Waits origin span.start upper ⟨tree.arena.size⟩ where
  new := older
  orphan := by
    intro parent member
    rw [children_grown] at member
    split at member
    · exact Nat.lt_irrefl _ (known _ member)
    · obtain ⟨parentKind, found, -⟩ := Arena.kind_of_child member
      have bound := Arena.kind_bound found
      have below := constructed.forest.below member
      dsimp only at below
      omega
  placed := ⟨span, by rw [span_grown, if_pos rfl], Position.le_refl _, ends⟩

/-- A node can be created while its number has no span. -/
theorem yields_create_new {tree : SourceTree} {kind : NodeKind NodeId} {span : Span}
    {holds : NodeId → SourceTree → Prop} (absent : tree.spans.span? ⟨tree.arena.size⟩ = none)
    (met : holds ⟨tree.arena.size⟩ (tree.grown kind span)) :
    Yields (create kind span) tree holds := by
  unfold create
  rw [yields_bind]
  change Yields (do
    onSpans (SpanTable.add ⟨tree.arena.size⟩ span)
    return (⟨tree.arena.size⟩ : NodeId)) { tree with arena := (tree.arena.alloc kind).2 } holds
  rw [yields_bind, yields_on_spans]
  exact SpanTable.yields_add absent met

theorem yields_create {limit : Position} {tree : SourceTree} {kind : NodeKind NodeId} {span : Span}
    {holds : NodeId → SourceTree → Prop} (constructed : tree.Constructed limit)
    (met : holds ⟨tree.arena.size⟩ (tree.grown kind span)) :
    Yields (create kind span) tree holds := by
  refine yields_create_new ?_ met
  have absent := (constructed.recorded ⟨tree.arena.size⟩).not
  simpa using absent

end SourceTree

end ModuleLang
