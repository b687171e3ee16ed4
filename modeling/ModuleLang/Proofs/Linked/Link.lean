import ModuleLang.Proofs.Tree.Replacing
import ModuleLang.Proofs.Typing.Rewriting

/-!
Two inferences that work on the same part of a tree, each of them behind other work. A link
says where both began. Nodes that were parsed have the same numbers in both; nodes that are
added are counted from where the work began, so that both do the same up to a renaming. What
is outside of the part stays as it is.
-/

namespace ModuleLang

/-- The binding of another node. -/
def Binding.renamed (rename : NodeId → NodeId) (binding : Binding) : Binding :=
  { binding with node := rename binding.node }

/-- The frame with other nodes for its names. -/
def Frame.renamed (rename : NodeId → NodeId) (frame : Frame) : Frame where
  visible := frame.visible.map fun entry => (entry.1, entry.2.renamed rename)
  declared := frame.declared.map fun entry => (entry.1, rename entry.2)
  nested := frame.nested.map fun entry => (entry.1, rename entry.2)

namespace Scopes

/-- The frames with other nodes for their names. -/
def renamed (rename : NodeId → NodeId) (scopes : Scopes) : Scopes :=
  ⟨scopes.top.renamed rename, scopes.outer.map (Frame.renamed rename)⟩

variable (rename : NodeId → NodeId) (scopes : Scopes) (name : String)

theorem lookup_entries {first second : Type} (change : first → second)
    (entries : List (String × first)) :
    (entries.map fun entry => (entry.1, change entry.2)).lookup name =
      (entries.lookup name).map change := by
  induction entries with
  | nil => rfl
  | cons entry entries ih =>
      rw [List.map_cons, List.lookup_cons, List.lookup_cons]
      split
      · rfl
      · exact ih

theorem lookup_renamed : (scopes.renamed rename).lookup name =
    (scopes.lookup name).map (Binding.renamed rename) :=
  lookup_entries name (Binding.renamed rename) scopes.top.visible

theorem nested_renamed : (scopes.renamed rename).nested name = (scopes.nested name).map rename :=
  lookup_entries name rename scopes.top.nested

theorem declare_renamed (binding : Binding) :
    (scopes.renamed rename).declare name (binding.renamed rename) =
      (scopes.declare name binding).renamed rename := rfl

theorem push_renamed : (scopes.renamed rename).push = scopes.push.renamed rename := rfl

theorem pop_renamed : (scopes.renamed rename).pop = scopes.pop.renamed rename := by
  rcases scopes with ⟨top, outer⟩
  cases outer with
  | nil => rfl
  | cons parent outer =>
      simp only [pop, renamed, List.map_cons, Frame.absorb, Frame.renamed, List.map_append]

end Scopes

namespace Inference

/-- Work that leaves all nodes outside of a part as they are. -/
structure Spares (part : Region) (before after : SourceTree) : Prop where
  size : before.arena.size ≤ after.arena.size
  node : ∀ id, id.index < before.arena.size → ¬ part id →
    after.arena.node? id = before.arena.node? id
  span : ∀ id, id.index < before.arena.size → ¬ part id →
    after.spans.span? id = before.spans.span? id

/-- Work on a part of a tree, after which all nodes with a span are nodes of the tree. -/
structure Confined (part : Region) (before after : SourceTree) : Prop extends
    Spares part before after where
  placed : ∀ id, (after.spans.span? id).isSome → id.index < after.arena.size

namespace Confined

variable {part : Region} {before after : SourceTree} (confined : Confined part before after)

include confined

theorem pushed (node : Node) {spans : SpanTable}
    (placed : ∀ id, (spans.span? id).isSome → id.index ≤ after.arena.size)
    (kept : ∀ id, id.index < before.arena.size → ¬ part id →
      spans.span? id = after.spans.span? id) :
    Confined part before ⟨⟨after.arena.nodes.push node⟩, spans⟩ where
  size := Nat.le_trans confined.size (by simp [Arena.size])
  node id old apart := by
    have bound := Nat.lt_of_lt_of_le old confined.size
    refine Eq.trans ?_ (confined.node id old apart)
    exact Array.getElem?_push.trans (if_neg (Nat.ne_of_lt bound))
  span id old apart := (kept id old apart).trans (confined.span id old apart)
  placed id found := by
    have bound := placed id found
    simp only [Arena.size, Array.size_push] at bound ⊢
    omega

theorem changed {node : NodeId} (own : part node ∨ before.arena.size ≤ node.index) {arena : Arena}
    (size : arena.size = after.arena.size)
    (others : ∀ id, id ≠ node → arena.node? id = after.arena.node? id) :
    Confined part before { after with arena } where
  size := by
    rw [size]
    exact confined.size
  node id old apart := by
    have different : id ≠ node := by
      rintro rfl
      rcases own with inside | new
      · exact apart inside
      · exact Nat.not_lt.mpr new old
    exact (others id different).trans (confined.node id old apart)
  span := confined.span
  placed id found := by
    rw [size]
    exact confined.placed id found

end Confined

/-- A part of a tree that two inferences work on, and the states in which they begin. -/
structure Link where
  part : Region
  here : InferenceState
  there : InferenceState
  old : ∀ id, part id → id.index < here.size ∧ id.index < there.size

namespace Link

variable (link : Link)

/-- The number that a node of the first inference has in the second one. -/
def rename (id : NodeId) : NodeId :=
  if id.index < link.here.size then id else ⟨id.index - link.here.size + link.there.size⟩

/-- Nodes of the part, and those that were added since. -/
def Own (id : NodeId) : Prop := link.part id ∨ link.here.size ≤ id.index

variable {link} {id other : NodeId}

theorem rename_part (inside : link.part id) : link.rename id = id := if_pos (link.old id inside).1

theorem rename_new (new : link.here.size ≤ id.index) :
    link.rename id = ⟨id.index - link.here.size + link.there.size⟩ :=
  if_neg (Nat.not_lt.mpr new)

theorem rename_own (own : link.Own id) :
    link.part (link.rename id) ∨ link.there.size ≤ (link.rename id).index := by
  rcases own with inside | new
  · rw [rename_part inside]
    exact .inl inside
  · rw [rename_new new]
    exact .inr (Nat.le_add_left _ _)

theorem rename_injective (first : link.Own id) (second : link.Own other)
    (same : link.rename id = link.rename other) : id = other := by
  have apart : ∀ {old new : NodeId}, link.part old → link.here.size ≤ new.index →
      link.rename old ≠ link.rename new := by
    intro old new inside behind equal
    rw [rename_part inside, rename_new behind] at equal
    have bound := (link.old old inside).2
    rw [equal] at bound
    exact absurd bound (Nat.not_lt.mpr (Nat.le_add_left _ _))
  rcases first with inside | new
  · rcases second with also | behind
    · rw [rename_part inside, rename_part also] at same
      exact same
    · exact absurd same (apart inside behind)
  · rcases second with also | behind
    · exact absurd same.symm (apart also new)
    · rw [rename_new new, rename_new behind] at same
      have indices := congrArg NodeId.index same
      apply NodeId.ext
      dsimp only at indices
      omega

variable (link)

/-- Trees of both inferences, of which the part and what was added are the same. -/
structure Trees (one two : SourceTree) : Prop where
  size : two.arena.size + link.here.size = one.arena.size + link.there.size
  node : ∀ id, link.Own id → two.arena.node? (link.rename id) =
    (one.arena.node? id).map (Node.renamed link.rename)
  span : ∀ id, link.Own id → two.spans.span? (link.rename id) = one.spans.span? id
  closed : ∀ id kind, link.Own id → one.arena.kind? id = some kind →
    ∀ child ∈ kind.children, link.Own child
  here : Confined link.part link.here.tree one
  there : Confined link.part link.there.tree two

variable {link}

namespace Trees

variable {one two : SourceTree} (trees : link.Trees one two)

include trees

theorem kind (own : link.Own id) : two.arena.kind? (link.rename id) =
    (one.arena.kind? id).map (NodeKind.map link.rename) := by
  unfold Arena.kind?
  rw [trees.node id own, Option.map_map, Option.map_map]
  rfl

theorem type (own : link.Own id) :
    two.arena.type? (link.rename id) = one.arena.type? id := by
  unfold Arena.type?
  rw [trees.node id own, Option.bind_map]
  rfl

/-- The next node has corresponding numbers. -/
theorem next : link.Own ⟨one.arena.size⟩ ∧ link.rename ⟨one.arena.size⟩ = ⟨two.arena.size⟩ := by
  have larger : link.here.size ≤ one.arena.size := trees.here.size
  refine ⟨.inr larger, (@rename_new link ⟨one.arena.size⟩ larger).trans ?_⟩
  have size := trees.size
  apply NodeId.ext
  dsimp only
  omega

theorem is_next (own : link.Own id) :
    (link.rename id).index = two.arena.size ↔ id.index = one.arena.size := by
  rcases trees.next with ⟨new, renamed⟩
  constructor
  · intro last
    have same : link.rename id = link.rename ⟨one.arena.size⟩ := by
      rw [renamed]
      exact NodeId.ext last
    exact congrArg NodeId.index (rename_injective own new same)
  · intro last
    have same : id = ⟨one.arena.size⟩ := NodeId.ext last
    rw [same, renamed]

/-- Both add a node. -/
theorem pushed {kind : NodeKind NodeId} (type : Option Ty) {spans others : SpanTable}
    (slots : ∀ child ∈ kind.children, link.Own child)
    (same : ∀ id, link.Own id → others.span? (link.rename id) = spans.span? id)
    (here : Confined link.part link.here.tree ⟨⟨one.arena.nodes.push ⟨kind, type⟩⟩, spans⟩)
    (there : Confined link.part link.there.tree
      ⟨⟨two.arena.nodes.push ⟨kind.map link.rename, type⟩⟩, others⟩) :
    link.Trees ⟨⟨one.arena.nodes.push ⟨kind, type⟩⟩, spans⟩
      ⟨⟨two.arena.nodes.push ⟨kind.map link.rename, type⟩⟩, others⟩ where
  size := by
    have size := trees.size
    simp only [Arena.size, Array.size_push] at size ⊢
    omega
  node id own := by
    have first : (⟨one.arena.nodes.push ⟨kind, type⟩⟩ : Arena).node? id =
        if id.index = one.arena.size then some ⟨kind, type⟩ else one.arena.node? id :=
      Array.getElem?_push
    have second : (⟨two.arena.nodes.push ⟨kind.map link.rename, type⟩⟩ : Arena).node?
        (link.rename id) = if (link.rename id).index = two.arena.size then
          some ⟨kind.map link.rename, type⟩ else two.arena.node? (link.rename id) :=
      Array.getElem?_push
    rw [first, second]
    simp only [trees.is_next own]
    split
    · rfl
    · exact trees.node id own
  span := same
  closed id found own known := by
    have first : (⟨one.arena.nodes.push ⟨kind, type⟩⟩ : Arena).node? id =
        if id.index = one.arena.size then some ⟨kind, type⟩ else one.arena.node? id :=
      Array.getElem?_push
    unfold Arena.kind? at known
    rw [first] at known
    split at known
    · cases known
      exact slots
    · exact trees.closed id found own known
  here := here
  there := there

/-- Both change a node. -/
theorem changed {node : NodeId} (own : link.Own node) {arena other : Arena}
    (size : arena.size = one.arena.size) (also : other.size = two.arena.size)
    (others : ∀ id, id ≠ node → arena.node? id = one.arena.node? id)
    (rest : ∀ id, id ≠ link.rename node → other.node? id = two.arena.node? id)
    (now : other.node? (link.rename node) = (arena.node? node).map (Node.renamed link.rename))
    (slots : ∀ kind, arena.kind? node = some kind → ∀ child ∈ kind.children, link.Own child) :
    link.Trees { one with arena } { two with arena := other } where
  size := by
    rw [size, also]
    exact trees.size
  node id inside := by
    by_cases same : id = node
    · rw [same]
      exact now
    · have different : link.rename id ≠ link.rename node := fun equal =>
        same (rename_injective inside own equal)
      dsimp only
      rw [others id same, rest _ different]
      exact trees.node id inside
  span := trees.span
  closed id kind inside known := by
    by_cases same : id = node
    · rw [same] at known
      exact slots kind known
    · dsimp only at known
      rw [Arena.kind_of_node (others id same)] at known
      exact trees.closed id kind inside known
  here := trees.here.changed own size others
  there := trees.there.changed (rename_own own) also rest

theorem set_type {node : NodeId} (own : link.Own node) (type : Option Ty) :
    link.Trees { one with arena := one.arena.setType node type }
      { two with arena := two.arena.setType (link.rename node) type } := by
  refine trees.changed own (Arena.size_setType _ _ _) (Arena.size_setType _ _ _) ?_ ?_ ?_ ?_
  · intro id different
    rw [Arena.node_set_type, if_neg different.symm]
  · intro id different
    rw [Arena.node_set_type, if_neg different.symm]
  · rw [Arena.node_set_type, if_pos rfl, Arena.node_set_type, if_pos rfl, trees.node node own,
      Option.map_map, Option.map_map]
    rfl
  · intro kind known
    rw [Arena.kind?_setType] at known
    exact trees.closed node kind own known

theorem set_kind {node : NodeId} (own : link.Own node) {kind : NodeKind NodeId}
    (slots : ∀ child ∈ kind.children, link.Own child) :
    link.Trees { one with arena := one.arena.setKind node kind }
      { two with arena := two.arena.setKind (link.rename node) (kind.map link.rename) } := by
  refine trees.changed own (Arena.size_setKind _ _ _) (Arena.size_setKind _ _ _) ?_ ?_ ?_ ?_
  · intro id different
    rw [Arena.node_set_kind, if_neg different.symm]
  · intro id different
    rw [Arena.node_set_kind, if_neg different.symm]
  · rw [Arena.node_set_kind, if_pos rfl, Arena.node_set_kind, if_pos rfl, trees.node node own,
      Option.map_map, Option.map_map]
    rfl
  · intro found known
    have bound : node.index < one.arena.size := by
      have bound := Arena.kind_bound known
      rw [Arena.size_setKind] at bound
      exact bound
    rw [Arena.kind_set_kind bound] at known
    cases known
    exact slots

end Trees

variable (link)

/-- States of both inferences in which as much was done. -/
structure Linked (one two : InferenceState) : Prop where
  trees : link.Trees one.tree two.tree
  scopes : two.scopes = one.scopes.renamed link.rename
  bound : ∀ id ∈ one.scopes.nodes, link.Own id
  result : two.result = one.result
  loopDepth : two.loopDepth = one.loopDepth
  duplicates : ∀ id, link.Own id → (link.rename id ∈ two.duplicates ↔ id ∈ one.duplicates)
  notedHere : ∀ id ∈ one.duplicates, id ∈ link.here.duplicates ∨
    link.Own id ∧ id.index < one.size
  notedThere : ∀ id ∈ two.duplicates, id ∈ link.there.duplicates ∨
    (link.part id ∨ link.there.size ≤ id.index) ∧ id.index < two.size
  reports : ∃ more, one.diagnostics = link.here.diagnostics ++ more ∧
    two.diagnostics = link.there.diagnostics ++ more

variable {link}

namespace Linked

variable {one two : InferenceState} (linked : link.Linked one two)

include linked

theorem with_trees {tree other : SourceTree} (trees : link.Trees tree other)
    (larger : one.size ≤ tree.arena.size) :
    link.Linked { one with tree } { two with tree := other } where
  trees := trees
  scopes := linked.scopes
  bound := linked.bound
  result := linked.result
  loopDepth := linked.loopDepth
  duplicates := linked.duplicates
  notedHere id member :=
    (linked.notedHere id member).imp_right fun new => ⟨new.1, Nat.lt_of_lt_of_le new.2 larger⟩
  notedThere id member := by
    have first := linked.trees.size
    have second := trees.size
    refine (linked.notedThere id member).imp_right fun new => ⟨new.1, ?_⟩
    have bound := new.2
    simp only [InferenceState.size] at bound larger ⊢
    omega
  reports := linked.reports

theorem reported (found : Diagnostic) :
    link.Linked { one with diagnostics := one.diagnostics ++ [found] }
      { two with diagnostics := two.diagnostics ++ [found] } := by
  rcases linked.reports with ⟨more, first, second⟩
  refine ⟨linked.trees, linked.scopes, linked.bound, linked.result, linked.loopDepth,
    linked.duplicates, linked.notedHere, linked.notedThere, more ++ [found], ?_, ?_⟩
  · rw [first, List.append_assoc]
  · rw [second, List.append_assoc]

theorem with_scopes {scopes : Scopes} (bound : ∀ id ∈ scopes.nodes, link.Own id) :
    link.Linked { one with scopes } { two with scopes := scopes.renamed link.rename } :=
  ⟨linked.trees, rfl, bound, linked.result, linked.loopDepth, linked.duplicates,
    linked.notedHere, linked.notedThere, linked.reports⟩

theorem with_depth (loopDepth : Nat) :
    link.Linked { one with loopDepth } { two with loopDepth } :=
  ⟨linked.trees, linked.scopes, linked.bound, linked.result, rfl, linked.duplicates,
    linked.notedHere, linked.notedThere, linked.reports⟩

/-- Both note a node that was reported as a duplicate. -/
theorem noted {node : NodeId} (own : link.Own node) (known : (one.span? node).isSome) :
    link.Linked { one with duplicates := node :: one.duplicates }
      { two with duplicates := link.rename node :: two.duplicates } where
  trees := linked.trees
  scopes := linked.scopes
  bound := linked.bound
  result := linked.result
  loopDepth := linked.loopDepth
  duplicates id inside := by
    have same : link.rename id = link.rename node ↔ id = node :=
      ⟨rename_injective inside own, congrArg link.rename⟩
    simp only [List.mem_cons, same, linked.duplicates id inside]
  notedHere id member := by
    rcases List.mem_cons.mp member with rfl | before
    · exact .inr ⟨own, linked.trees.here.placed id known⟩
    · exact linked.notedHere id before
  notedThere id member := by
    rcases List.mem_cons.mp member with rfl | before
    · refine .inr ⟨rename_own own, linked.trees.there.placed _ ?_⟩
      rw [linked.trees.span node own]
      exact known
    · exact linked.notedThere id before
  reports := linked.reports

end Linked

/-- A part of a tree that is not worked on yet, while no name is declared. -/
structure Awaits (part : Region) (state : InferenceState) : Prop where
  old : ∀ id, part id → id.index < state.size
  closed : ∀ id kind, part id → state.kind? id = some kind → ∀ child ∈ kind.children, part child
  placed : ∀ id, (state.span? id).isSome → id.index < state.size
  noted : ∀ id ∈ state.duplicates, id.index < state.size ∧ ¬ part id
  scopes : state.scopes = .empty

theorem Awaits.confined {part : Region} {state : InferenceState} (awaits : Awaits part state) :
    Confined part state.tree state.tree :=
  ⟨⟨Nat.le_refl _, fun _ _ _ => rfl, fun _ _ _ => rfl⟩, awaits.placed⟩

/-- Two inferences begin to work on the same part of a tree. -/
theorem linked_of_awaits {part : Region} {here there : InferenceState}
    (first : Awaits part here) (second : Awaits part there)
    (node : ∀ id, part id → there.tree.arena.node? id = here.tree.arena.node? id)
    (span : ∀ id, part id → there.span? id = here.span? id)
    (result : there.result = here.result) (loopDepth : there.loopDepth = here.loopDepth) :
    Linked ⟨part, here, there, fun id inside => ⟨first.old id inside, second.old id inside⟩⟩
      here there := by
  let link : Link :=
    ⟨part, here, there, fun id inside => ⟨first.old id inside, second.old id inside⟩⟩
  -- Nothing was added yet.
  have beyond : ∀ id, here.size ≤ id.index → there.size ≤ (link.rename id).index := by
    intro id new
    rw [@rename_new link id new]
    exact Nat.le_add_left _ _
  have absent : ∀ {state : InferenceState} (id : NodeId), state.size ≤ id.index →
      state.tree.arena.node? id = none := by
    intro state id new
    exact Option.not_isSome_iff_eq_none.mp fun found =>
      Nat.not_lt.mpr new (Arena.node_bound.mp found)
  have trees : link.Trees here.tree there.tree := by
    refine ⟨Nat.add_comm _ _, ?_, ?_, ?_, first.confined, second.confined⟩
    · intro id own
      rcases own with inside | new
      · rw [rename_part inside, node id inside]
        cases known : here.tree.arena.node? id with
        | none => rfl
        | some found =>
            refine congrArg some (Node.renamed_same ?_).symm
            intro child slot
            refine rename_part (first.closed id found.kind inside ?_ child slot)
            exact congrArg (Option.map Node.kind) known
      · rw [absent id new, absent _ (beyond id new)]
        rfl
    · intro id own
      rcases own with inside | new
      · rw [rename_part inside]
        exact span id inside
      · have left : here.span? id = none := Option.not_isSome_iff_eq_none.mp fun found =>
          Nat.not_lt.mpr new (first.placed id found)
        have right : there.span? (link.rename id) = none :=
          Option.not_isSome_iff_eq_none.mp fun found =>
            Nat.not_lt.mpr (beyond id new) (second.placed _ found)
        exact right.trans left.symm
    · intro id kind own known child slot
      rcases own with inside | new
      · exact .inl (first.closed id kind inside known child slot)
      · exact absurd (Arena.kind_bound known) (Nat.not_lt.mpr new)
  refine ⟨trees, ?_, ?_, result, loopDepth, ?_, fun _ member => .inl member,
    fun _ member => .inl member, [], (List.append_nil _).symm, (List.append_nil _).symm⟩
  · rw [first.scopes, second.scopes]
    rfl
  · rw [first.scopes]
    exact List.forall_mem_nil _
  · intro id own
    have left : id ∉ here.duplicates := by
      intro member
      rcases own with inside | new
      · exact (first.noted id member).2 inside
      · exact Nat.not_lt.mpr new (first.noted id member).1
    have right : link.rename id ∉ there.duplicates := by
      intro member
      rcases own with inside | new
      · rw [rename_part inside] at member
        exact (second.noted id member).2 inside
      · exact Nat.not_lt.mpr (beyond id new) (second.noted _ member).1
    exact iff_of_false right left

end Link

end Inference

end ModuleLang
