import ModuleLang.Proofs.Linked.Heading

/-!
Bodies in turn. A function is entered with no names and no loop around, and only its own
parameters and its own body are looked at. So what a body becomes, and what is reported
about it, does not depend on the place of its function among the others.
-/

namespace ModuleLang

/-- The tree below a node, in two trees: the parsed nodes are the same, and those that
were added have other numbers. -/
structure SourceTree.Mirrored (parsed : Nat) (root : NodeId) (one two : SourceTree)
    (rename : NodeId → NodeId) : Prop where
  parsed : ∀ id, id.index < parsed → rename id = id
  injective : ∀ first second, one.arena.Reachable root first → one.arena.Reachable root second →
    rename first = rename second → first = second
  node : ∀ id, one.arena.Reachable root id → ∃ node, one.arena.node? id = some node ∧
    two.arena.node? (rename id) = some (node.renamed rename)
  span : ∀ id, one.arena.Reachable root id → two.spans.span? (rename id) = one.spans.span? id

namespace Inference

variable {limit : Position} {origin : SourceTree} {environment other : Environment}
  {function : NodeId} {result : Option NodeId} {name : String} {parameters : List NodeId}
  {block : NodeId}

theorem ran_function {before after : InferenceState} {value : Unit}
    (found : before.kind? function = some (.function result name parameters block))
    (ran : Ran (Inference.function environment function) before value after) :
    Ran (do
      parameters.forM declareParameter
      wholeBody environment block) (entered before result) value after := by
  rcases ran_bind.mp ran with ⟨_, _, got, matched⟩
  cases got
  rw [show before.tree.arena.kind? function = _ from found] at matched
  rcases ran_bind.mp matched with ⟨_, middle, entering, rest⟩
  have same := (yields_enter result before).of_ran entering
  rw [same] at rest
  exact rest

theorem matches_inside {link : Link} (agrees : Agree environment other)
    (heads : ∀ parameter ∈ parameters, link.part parameter) (body : link.part block) :
    Matches link Eq
      (do
        parameters.forM declareParameter
        wholeBody environment block)
      (do
        parameters.forM declareParameter
        wholeBody other block) := by
  have first : Matches link Eq (parameters.forM declareParameter)
      ((parameters.map link.rename).forM declareParameter) :=
    Matches.forM fun parameter member => matches_declare_parameter (.inl (heads parameter member))
  have second := @matches_whole_body link environment other agrees block (.inl body)
  have same : parameters.map link.rename = parameters :=
    (List.map_congr_left fun parameter member => Link.rename_part (heads parameter member)).trans
      (List.map_id _)
  rw [same] at first
  rw [Link.rename_part body] at second
  apply first.next
  intro _
  exact second

/-- What lies below a node of the part is mirrored, as long as it is not changed later. -/
theorem Link.Linked.mirrored {link : Link} {one two final last : InferenceState} {parsed : Nat}
    (linked : link.Linked one two) (inside : link.part function) (size : parsed ≤ link.here.size)
    (bounded : ∀ id, one.tree.arena.Reachable function id → id.index < one.size)
    (kept : ∀ id, id.index < one.size → link.Own id →
      final.tree.arena.node? id = one.tree.arena.node? id ∧ final.span? id = one.span? id)
    (also : ∀ id, id.index < two.size → link.part id ∨ link.there.size ≤ id.index →
      last.tree.arena.node? id = two.tree.arena.node? id ∧ last.span? id = two.span? id) :
    SourceTree.Mirrored parsed function final.tree last.tree link.rename := by
  have trees := linked.trees
  have within : ∀ id, final.tree.arena.Reachable function id →
      one.tree.arena.Reachable function id ∧ link.Own id := by
    intro id below
    induction below with
    | refl => exact ⟨.refl, .inl inside⟩
    | @tail parent child _ slot ih =>
        rcases ih with ⟨path, own⟩
        have same := Arena.kind_of_node (kept parent (bounded parent path) own).1
        have slot : child ∈ one.tree.arena.children parent := by
          unfold Arena.children
          rw [← same]
          exact slot
        refine ⟨.tail path slot, ?_⟩
        rcases Arena.kind_of_child slot with ⟨kind, found, member⟩
        exact trees.closed parent kind own found child member
  have image : ∀ id, final.tree.arena.Reachable function id → ∃ node,
      one.tree.arena.node? id = some node ∧
      two.tree.arena.node? (link.rename id) = some (node.renamed link.rename) := by
    intro id below
    rcases within id below with ⟨path, own⟩
    rcases Option.isSome_iff_exists.mp (Arena.node_bound.mpr (bounded id path)) with ⟨node, known⟩
    refine ⟨node, known, ?_⟩
    rw [trees.node id own, known]
    rfl
  have placed : ∀ id, final.tree.arena.Reachable function id →
      (link.rename id).index < two.size := by
    intro id below
    rcases image id below with ⟨node, -, renamed⟩
    exact Arena.node_bound.mp (Option.isSome_of_eq_some renamed)
  refine ⟨?_, ?_, ?_, ?_⟩
  · intro id old
    exact if_pos (Nat.lt_of_lt_of_le old size)
  · intro first second left right
    exact Link.rename_injective (within first left).2 (within second right).2
  · intro id below
    rcases within id below with ⟨path, own⟩
    rcases image id below with ⟨node, known, renamed⟩
    refine ⟨node, (kept id (bounded id path) own).1.trans known, ?_⟩
    exact (also _ (placed id below) (Link.rename_own own)).1.trans renamed
  · intro id below
    rcases within id below with ⟨path, own⟩
    refine (also _ (placed id below) (Link.rename_own own)).2.trans ?_
    exact (trees.span id own).trans (kept id (bounded id path) own).2.symm

/-- What is known of the functions whose bodies are not looked at yet. -/
structure Remains (origin : SourceTree) (left : List NodeId) (state : InferenceState) : Prop where
  size : origin.arena.size ≤ state.size
  closed : ∀ function ∈ left, ∀ id kind, origin.arena.Reachable function id →
    state.kind? id = some kind → ∀ child ∈ kind.children, origin.arena.Reachable function child
  placed : ∀ id, (state.span? id).isSome → id.index < state.size
  noted : ∀ id ∈ state.duplicates, id.index < state.size ∧
    ∀ function ∈ left, ¬ origin.arena.Reachable function id

theorem Remains.awaits {left : List NodeId} {state : InferenceState}
    (remains : Remains origin left state) (constructed : origin.Constructed limit)
    (member : function ∈ left) (bound : function.index < origin.arena.size)
    (result : Option NodeId) :
    Link.Awaits (origin.arena.Reachable function) (entered state result) where
  old _ below := Nat.lt_of_lt_of_le (reachable_bounded constructed bound below) remains.size
  closed := remains.closed function member
  placed := remains.placed
  noted _ noted := ⟨(remains.noted _ noted).1, (remains.noted _ noted).2 function member⟩
  scopes := rfl

theorem Remains.later {left : List NodeId} {before after : InferenceState}
    (remains : Remains origin (function :: left) before) (constructed : origin.Constructed limit)
    (bound : ∀ item ∈ function :: left, item.index < origin.arena.size)
    (apart : ∀ item ∈ left, ∀ id, origin.arena.Reachable function id →
      ¬ origin.arena.Reachable item id)
    (ended : Ended (origin.arena.Reachable function) before after) :
    Remains origin left after where
  size := Nat.le_trans remains.size ended.size
  closed item member id kind below found := by
    have within := List.mem_cons_of_mem function member
    have old := Nat.lt_of_lt_of_le (reachable_bounded constructed (bound item within) below)
      remains.size
    have same := Arena.kind_of_node
      (ended.node id old fun inside => apart item member id inside below)
    exact remains.closed item within id kind below (same.symm.trans found)
  placed := ended.placed
  noted id member := by
    rcases ended.noted id member with before | ⟨own, last⟩
    · rcases remains.noted id before with ⟨old, outside⟩
      refine ⟨Nat.lt_of_lt_of_le old ended.size, ?_⟩
      exact fun item within => outside item (List.mem_cons_of_mem function within)
    · refine ⟨last, fun item within below => ?_⟩
      rcases own with inside | new
      · exact apart item within id inside below
      · have old := reachable_bounded constructed
          (bound item (List.mem_cons_of_mem function within)) below
        exact Nat.not_lt.mpr new (Nat.lt_of_lt_of_le old remains.size)

section Bodies

variable {host : Host} {root : NodeId} {modules imports functions passed left : List NodeId}
  {start signed current : InferenceState}

/-- Nothing below a function whose body was looked at lies beyond the tree. -/
theorem Prepared.bounded_below
    (prepared : Prepared limit origin host root modules imports functions start signed)
    (advanced : Advanced limit origin host functions passed left signed current)
    (member : function ∈ passed) {id : NodeId}
    (below : current.tree.arena.Reachable function id) : id.index < current.size := by
  have known : function ∈ functions := by
    rw [← advanced.whole]
    exact List.mem_append_left _ member
  rcases function_kind prepared.constructed prepared.found known with
    ⟨result, name, parameters, block, found⟩
  have kind : current.kind? function = some (.function result name parameters block) :=
    (prepared.above_same advanced (Or.inr (prepared.child known))).1.trans found
  rcases Arena.reachable_cases below with rfl | ⟨child, slot, path⟩
  · exact Arena.kind_bound kind
  · rw [Arena.children_of_kind kind, ← Arena.children_of_kind found] at slot
    rcases Arena.head_or_block found slot with head | isBlock
    · have settled := prepared.heads_settled advanced
      refine settled.bounded (settled.reachable (.inl ⟨child, ?_, .refl⟩) path)
      exact List.mem_flatMap.mpr ⟨function, known, head⟩
    · have settled := advanced.work.settled
      refine settled.bounded (settled.reachable (.inl ⟨child, ?_, .refl⟩) path)
      exact List.mem_flatMap.mpr ⟨function, member, isBlock⟩

/-- Bodies are looked at behind all signatures. -/
def Bodies (limit : Position) (origin : SourceTree) (host : Host) (functions : List NodeId)
    (signed : InferenceState) (left : List NodeId) (state : InferenceState) : Prop :=
  Remains origin left state ∧
    ∃ passed, Advanced limit origin host functions passed left signed state

theorem function_bound (constructed : origin.Constructed limit)
    (found : origin.arena.kind? root = some (.root modules imports functions))
    (member : function ∈ functions) : function.index < origin.arena.size := by
  rcases function_kind constructed found member with ⟨_, _, _, _, known⟩
  exact Arena.kind_bound known

theorem functions_apart (constructed : origin.Constructed limit)
    (found : origin.arena.kind? root = some (.root modules imports functions)) :
    functions.Pairwise fun first second => ∀ id, origin.arena.Reachable first id →
      ¬ origin.arena.Reachable second id := by
  have distinct := constructed.forest.distinct_of_kind found
  rw [NodeKind.children] at distinct
  apply (List.nodup_append.mp distinct).2.1.imp_of_mem
  intro first second left right different id below also
  exact different (constructed.forest.siblings_disjoint (function_is_child found left)
    (function_is_child found right) below also)

theorem Bodies.kind
    (prepared : Prepared limit origin host root modules imports functions start signed)
    (bodies : Bodies limit origin host functions signed (function :: left) current)
    (found : origin.arena.kind? function = some (.function result name parameters block)) :
    current.kind? function = some (.function result name parameters block) := by
  rcases bodies with ⟨-, passed, advanced⟩
  have member : function ∈ functions := by
    rw [← advanced.whole]
    exact List.mem_append_right _ List.mem_cons_self
  exact (prepared.above_same advanced (Or.inr (prepared.child member))).1.trans found

/-- Parameters and body of a function lie below it. -/
theorem slots_below
    (found : origin.arena.kind? function = some (.function result name parameters block)) :
    (∀ written ∈ result.toList, origin.arena.Reachable function written) ∧
      (∀ parameter ∈ parameters, origin.arena.Reachable function parameter) ∧
      origin.arena.Reachable function block := by
  have slots := closed_of_kind .refl found
  simp only [NodeKind.children, List.forall_mem_append, List.forall_mem_cons] at slots
  exact ⟨slots.1.1, slots.1.2, slots.2.1⟩

theorem ended_function
    (prepared : Prepared limit origin environment.host root modules imports functions start signed)
    (bodies : Bodies limit origin environment.host functions signed (function :: left) current)
    {final : InferenceState} {value : Unit}
    (ran : Ran (Inference.function environment function) current value final) :
    Bodies limit origin environment.host functions signed left final ∧
      Ended (origin.arena.Reachable function) current final := by
  have constructed := prepared.constructed
  have whole := bodies.2
  rcases whole with ⟨passed, advanced⟩
  have member : function ∈ functions := by
    rw [← advanced.whole]
    exact List.mem_append_right _ List.mem_cons_self
  have bound : ∀ item ∈ function :: left, item.index < origin.arena.size := by
    intro item within
    refine function_bound constructed prepared.found ?_
    rw [← advanced.whole]
    exact List.mem_append_right _ within
  have apart := functions_apart constructed prepared.found
  rw [← advanced.whole] at apart
  have away := (List.pairwise_cons.mp (List.pairwise_append.mp apart).2.1).1
  rcases function_kind constructed prepared.found member with
    ⟨result, name, parameters, block, found⟩
  rcases slots_below found with ⟨-, heads, body⟩
  have ended : Ended (origin.arena.Reachable function) current final := by
    have awaits := bodies.1.awaits constructed List.mem_cons_self
      (bound function List.mem_cons_self) result
    have done := awaits.ended (fun link same => matches_inside (agree_refl environment)
      (by rw [same]; exact heads) (by rw [same]; exact body))
      (ran_function (bodies.kind prepared found) ran)
    exact ⟨done.toConfined, done.reports, done.noted⟩
  refine ⟨⟨bodies.1.later constructed bound away ended, ?_⟩, ended⟩
  exact ⟨_, (yields_function prepared advanced).of_ran ran⟩

/-- What a function becomes, and what is reported about it, is the same in another order. -/
theorem bodies_alike {reordered : SourceTree} {order : List NodeId}
    {restart resigned : InferenceState}
    (prepared : Prepared limit origin environment.host root modules imports functions start signed)
    (again : Prepared limit reordered other.host root modules imports order restart resigned)
    (reachable : reordered.arena.Reachable = origin.arena.Reachable)
    (agrees : Agree environment other) (member : function ∈ functions) (also : function ∈ order)
    (node : ∀ id, origin.arena.Reachable function id →
      resigned.tree.arena.node? id = signed.tree.arena.node? id ∧
      resigned.span? id = signed.span? id)
    {final last : InferenceState} {row column : Unit × List Diagnostic}
    (one : Turned (Inference.function environment) origin.arena.Reachable
      (Bodies limit origin environment.host functions signed) signed final function row)
    (two : Turned (Inference.function other) reordered.arena.Reachable
      (Bodies limit reordered other.host order resigned) resigned last function column) :
    row = column ∧ ∃ rename, SourceTree.Mirrored origin.arena.size function final.tree last.tree
      rename := by
  rw [reachable] at two
  rcases one with ⟨before, after, left, bodies, ⟨-, passed, advanced⟩, turn⟩
  rcases two with ⟨earlier, later, right, others, -, turned⟩
  rcases function_kind prepared.constructed prepared.found member with
    ⟨result, name, parameters, block, found⟩
  rcases slots_below found with ⟨results, heads, body⟩
  have nodes : ∀ id, origin.arena.Reachable function id →
      earlier.tree.arena.node? id = before.tree.arena.node? id := fun id below =>
    (turned.node id below).trans ((node id below).1.trans (turn.node id below).symm)
  have spans : ∀ id, origin.arena.Reachable function id → earlier.span? id = before.span? id :=
    fun id below => (turned.span id below).trans ((node id below).2.trans (turn.span id below).symm)
  have kind := bodies.kind prepared found
  have sameKind : earlier.kind? function = some (.function result name parameters block) :=
    (Arena.kind_of_node (nodes function .refl)).trans kind
  have awaits := bodies.1.awaits prepared.constructed List.mem_cons_self
    (function_bound prepared.constructed prepared.found member) result
  have waits := others.1.awaits again.constructed List.mem_cons_self
    (function_bound again.constructed again.found also) result
  rw [reachable] at waits
  have declared : resultOf earlier result = resultOf before result := by
    cases result with
    | none => rfl
    | some written => exact Arena.type_of_node (nodes written (results written List.mem_cons_self))
  have begun := Link.linked_of_awaits awaits waits nodes spans declared rfl
  rcases matches_inside agrees (by exact heads) (by exact body) _ _ begun _ _ _ _
    (ran_function kind turn.ran) (ran_function sameKind turned.ran) with ⟨same, linked⟩
  refine ⟨Prod.ext same (turn.same_reports turned linked.reports), _,
    linked.mirrored (by exact .refl) bodies.1.size ?_ ?_ ?_⟩
  · intro id below
    refine prepared.bounded_below advanced ?_ below
    rcases bodies.2 with ⟨done, working⟩
    have whole := working.whole.trans advanced.whole.symm
    rw [List.append_cons] at whole
    rw [← List.append_cancel_right whole]
    exact List.mem_append_right _ List.mem_cons_self
  · intro id bound own
    exact ⟨turn.keptNode id bound own, turn.keptSpan id bound own⟩
  · intro id bound own
    exact ⟨turned.keptNode id bound own, turned.keptSpan id bound own⟩

end Bodies

end Inference

end ModuleLang
