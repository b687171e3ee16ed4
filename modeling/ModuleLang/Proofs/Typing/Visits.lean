import ModuleLang.Proofs.Typing.Casting

/-!
Work on one node. Its children are worked on one after the other, which leaves the
node itself and the children that follow untouched; then the node is judged: at
most one of its slots is rewritten, and its rule is met or an error is reported.
-/

namespace ModuleLang.Inference

variable {limit : Position} {origin : SourceTree} {results : Option Ty → Prop}

theorem below_bounded (constructed : origin.Constructed limit) {nodes : List NodeId} {id : NodeId}
    (known : ∀ node ∈ nodes, node.index < origin.arena.size) (inside : Below origin nodes id) :
    id.index < origin.arena.size := by
  obtain ⟨node, member, below⟩ := inside
  exact Nat.lt_of_le_of_lt (constructed.forest.index_le below) (known node member)

theorem below_singleton {node id : NodeId} :
    Below origin [node] id ↔ origin.arena.Reachable node id := by
  simp [Below]

/-- What lies below a node is the node or lies below its children. -/
theorem below_children {node : NodeId} {kind : NodeKind NodeId}
    (found : origin.arena.kind? node = some kind) {id : NodeId} :
    Below origin [node] id ↔ id = node ∨ Below origin kind.children id := by
  rw [below_singleton]
  constructor
  · intro below
    obtain same | ⟨child, inside, rest⟩ := Arena.reachable_cases below
    · exact Or.inl same
    · rw [Arena.children_of_kind found] at inside
      exact Or.inr ⟨child, inside, rest⟩
  · rintro (rfl | ⟨child, inside, rest⟩)
    · exact .refl
    · rw [← Arena.children_of_kind found] at inside
      exact .below_child inside rest

/-- Work on the children of a node, those in `done` so far. -/
structure Visits (limit : Position) (origin : SourceTree) (results : Option Ty → Prop)
    (node : NodeId) (kind : NodeKind NodeId) (done rest : List NodeId)
    (before state : InferenceState) : Prop where
  constructed : origin.Constructed limit
  found : origin.arena.kind? node = some kind
  order : (done ++ rest).Perm kind.children
  start : Sound limit origin before
  untouched : Untouched origin (Below origin [node]) before
  work : Worked limit origin results done before state

namespace Visits

variable {node child : NodeId} {kind : NodeKind NodeId} {done rest : List NodeId}
  {before state after : InferenceState}

theorem begin (constructed : origin.Constructed limit)
    (found : origin.arena.kind? node = some kind) (start : Sound limit origin before)
    (untouched : Untouched origin (Below origin [node]) before) :
    Visits limit origin results node kind [] kind.children before before :=
  ⟨constructed, found, .refl _, start, untouched, .nil results start⟩

theorem sound (visits : Visits limit origin results node kind done rest before state) :
    Sound limit origin state :=
  visits.work.sound

theorem child_below (visits : Visits limit origin results node kind done rest before state)
    (member : child ∈ done ++ rest) : child ∈ origin.arena.children node :=
  Arena.child_of_kind visits.found (visits.order.mem_iff.mp member)

theorem distinct (visits : Visits limit origin results node kind done rest before state) :
    kind.children.Nodup :=
  visits.constructed.forest.distinct_of_kind visits.found

theorem below_index (visits : Visits limit origin results node kind done rest before state)
    (member : child ∈ done ++ rest) : child.index < node.index :=
  visits.constructed.forest.below (visits.child_below member)

theorem child_bound (visits : Visits limit origin results node kind done rest before state)
    (member : child ∈ done ++ rest) : child.index < origin.arena.size :=
  Nat.lt_trans (visits.below_index member) (Arena.kind_bound visits.found)

/-- The node does not lie below its children. -/
theorem node_apart (visits : Visits limit origin results node kind done rest before state)
    (nodes : List NodeId) (subset : ∀ child ∈ nodes, child ∈ done ++ rest) :
    ¬ Below origin nodes node := by
  rintro ⟨child, member, below⟩
  exact visits.constructed.forest.parent_not_below (visits.child_below (subset child member)) below

theorem next_apart
    (visits : Visits limit origin results node kind done (child :: rest) before state) {id : NodeId}
    (inside : Below origin done id) : ¬ Below origin [child] id := by
  rintro ⟨other, same, below⟩
  rw [List.mem_singleton] at same
  subst same
  obtain ⟨earlier, member, path⟩ := inside
  have distinct := visits.order.nodup_iff.mpr visits.distinct
  have equal := visits.constructed.forest.siblings_disjoint
    (visits.child_below (List.mem_append_left _ member))
    (visits.child_below (List.mem_append_right _ List.mem_cons_self)) path below
  exact (List.nodup_append.mp distinct).2.2 earlier member other List.mem_cons_self equal

/-- The next child is still as it was parsed. -/
theorem next_untouched
    (visits : Visits limit origin results node kind done (child :: rest) before state) :
    Untouched origin (Below origin [child]) state := by
  have member : child ∈ done ++ child :: rest := List.mem_append_right _ List.mem_cons_self
  have part : Untouched origin (Below origin [child]) before := visits.untouched.part fun id inside => by
    rw [below_singleton] at *
    exact .below_child (visits.child_below member) inside
  have bound := visits.child_bound member
  refine part.later visits.work.leaves ?_ fun id inside earlier => visits.next_apart earlier inside
  intro id inside
  have old := below_bounded visits.constructed (by simpa using bound) inside
  exact Nat.lt_of_lt_of_le old visits.start.size

theorem next (visits : Visits limit origin results node kind done (child :: rest) before state)
    (work : Worked limit origin results [child] state after) :
    Visits limit origin results node kind (done ++ [child]) rest before after where
  constructed := visits.constructed
  found := visits.found
  order := by
    rw [List.append_assoc, List.singleton_append]
    exact visits.order
  start := visits.start
  untouched := visits.untouched
  work := by
    have bound := visits.child_bound (List.mem_append_right done (List.mem_cons_self (l := rest)))
    refine visits.work.append visits.start work ?_ fun id inside => visits.next_apart inside
    intro id inside
    exact below_bounded visits.constructed (by simpa using bound) inside

/-- The visits are over when no child is left. -/
theorem whole (visits : Visits limit origin results node kind done [] before state) :
    Visits limit origin results node kind kind.children [] before state := by
  have same := visits.order
  rw [List.append_nil] at same
  exact ⟨visits.constructed, visits.found, by rw [List.append_nil], visits.start,
    visits.untouched, visits.work.reorder same⟩

/-- The children that are left may be visited in another order. -/
theorem reorder {others : List NodeId}
    (visits : Visits limit origin results node kind done rest before state)
    (same : rest.Perm others) : Visits limit origin results node kind done others before state :=
  ⟨visits.constructed, visits.found, (same.symm.append_left done).trans visits.order, visits.start,
    visits.untouched, visits.work⟩

/-- The node itself is still as it was parsed. -/
theorem node_same (visits : Visits limit origin results node kind done rest before state) :
    state.kind? node = some kind ∧ state.span? node = origin.spans.span? node := by
  have inside : Below origin [node] node := below_singleton.mpr .refl
  have apart := visits.node_apart done fun child member => List.mem_append_left _ member
  have old : node.index < before.size :=
    Nat.lt_of_lt_of_le (Arena.kind_bound visits.found) visits.start.size
  constructor
  · have same := Arena.kind_of_node (visits.work.leaves.node node old apart)
    exact same.trans ((visits.untouched.kind node inside).trans visits.found)
  · exact (visits.work.leaves.span node old apart).trans (visits.untouched.span node inside)

theorem node_spanned (visits : Visits limit origin results node kind done rest before state) :
    (state.span? node).isSome := by
  rw [visits.node_same.2]
  exact (visits.constructed.recorded node).mpr (Arena.kind_bound visits.found)

theorem child_spanned (visits : Visits limit origin results node kind done rest before state)
    (member : child ∈ done) : (state.span? child).isSome := by
  rw [visits.work.spans child member]
  exact (visits.constructed.recorded child).mpr
    (visits.child_bound (List.mem_append_left _ member))

theorem child_covered (member : child ∈ done) : Covered origin done before state child :=
  Or.inl ⟨child, member, .refl⟩

/-- Once the children are visited, the node covers whatever has their spans. -/
theorem joined {now : NodeKind NodeId}
    (visits : Visits limit origin results node kind kind.children [] before state)
    (spans : ∀ id, id.index < state.size → after.span? id = state.span? id)
    (slots : ∀ child ∈ now.children, ∃ seen ∈ kind.children,
      after.span? child = after.span? seen) : SourceTree.Joined origin after.tree node now := by
  have old := Arena.kind_bound visits.found
  apply SourceTree.joined_parsed visits.constructed old
  · have bound := Nat.lt_of_lt_of_le old visits.sound.size
    exact (spans node bound).trans visits.node_same.2
  · intro child member
    rcases slots child member with ⟨seen, inside, same⟩
    have bound := visits.work.settled.bounded (child_covered inside)
    refine ⟨seen, visits.child_below (List.mem_append_left _ inside), same.trans ?_⟩
    exact (spans seen bound).trans (visits.work.spans seen inside)

theorem node_uncovered (visits : Visits limit origin results node kind done rest before state) :
    ¬ Covered origin done before state node := by
  rintro (inside | ⟨lower, -⟩)
  · exact visits.node_apart done (fun child member => List.mem_append_left _ member) inside
  · have old := Arena.kind_bound visits.found
    have size := visits.start.size
    omega

end Visits

/-- The work on a node but for storing its type, which will be `own`. -/
def Judged (limit : Position) (origin : SourceTree) (results : Option Ty → Prop)
    (node : NodeId) (kind : NodeKind NodeId) (own : Option Ty) (before after : InferenceState) :
    Prop :=
  ∃ middle now, Visits limit origin results node kind kind.children [] before middle ∧
    Rewrites limit origin results (fun id => id = node)
      (Covered origin kind.children before middle) middle after ∧
    Fine origin results after node own now ∧
    ∀ child ∈ now.children, Covered origin kind.children before middle child ∨
      Made middle after child

variable {node child : NodeId} {kind : NodeKind NodeId} {own : Option Ty}
  {before middle state after : InferenceState}

/-- A node whose slots stay what they are. -/
theorem judged_same
    (visits : Visits limit origin results node kind kind.children [] before middle)
    (rewrites : Rewrites limit origin results (fun id => id = node)
      (Covered origin kind.children before middle) middle state)
    (same : state.kind? node = some kind)
    (obeys : state.Clean → kind.Obeys state.type? own results) :
    Judged limit origin results node kind own before state := by
  refine ⟨middle, kind, visits, rewrites, ⟨same, ?_, ?_, ?_, obeys⟩, ?_⟩
  · exact SourceTree.traced_parsed visits.constructed.forest visits.found
  · exact visits.joined rewrites.spans fun child member => ⟨child, member, rfl⟩
  · intro child member
    have bound := visits.work.settled.bounded (Visits.child_covered member)
    rw [rewrites.spans child bound]
    exact visits.child_spanned member
  · intro child member
    exact Or.inl (Visits.child_covered member)

/-- A node on which nothing was left to do. -/
theorem judged_plain (visits : Visits limit origin results node kind kind.children [] before state)
    (obeys : state.Clean → kind.Obeys state.type? own results) :
    Judged limit origin results node kind own before state :=
  judged_same visits (.refl visits.sound visits.work.settled) visits.node_same.1 obeys

/-- A node that was reported as an error. -/
theorem judged_error {diagnostic : DiagnosticKind}
    (visits : Visits limit origin results node kind kind.children [] before state)
    (reported : Reported limit origin diagnostic state after) (error : diagnostic.level = .error)
    (own : Option Ty) : Judged limit origin results node kind own before after := by
  refine judged_same visits (.of_report visits.work.settled reported) ?_ fun clean =>
    absurd clean (reported.unclean error)
  unfold InferenceState.kind?
  rw [reported.tree]
  exact visits.node_same.1

theorem yields_widen {source target : Ty} {holds : PUnit → InferenceState → Prop}
    (visits : Visits limit origin results node kind kind.children [] before state)
    (slot : (Category.expression, child) ∈ kind.slots) (typed : state.type? child = some source)
    (widens : source.widensTo target = true)
    (met : ∀ cast final, Widened limit origin results node child kind target
      (Covered origin kind.children before state) state final cast → holds ⟨⟩ final) :
    Yields (insertCast node child target) state holds := by
  have member := NodeKind.slot_is_child slot
  exact yields_insert_cast visits.sound visits.work.settled (Visits.child_covered member)
    visits.node_uncovered visits.node_same.1 visits.distinct member
    (visits.child_bound (List.mem_append_left _ member)) typed widens (visits.child_spanned member)
    met

/-- Widening a child changes the type of no child that there was before. -/
theorem Visits.types_widened {cast other : NodeId} {target : Ty}
    (visits : Visits limit origin results node kind kind.children [] before state)
    (member : other ∈ kind.children)
    (widened : Widened limit origin results node child kind target
      (Covered origin kind.children before state) state after cast) :
    after.type? other = state.type? other := by
  have bound := visits.work.settled.bounded (Visits.child_covered member)
  refine Arena.type_of_node (widened.rewrites.leaves.node other bound ?_)
  rintro rfl
  exact visits.node_uncovered (Visits.child_covered member)

/-- A node with a child that was widened. -/
theorem judged_widened {cast : NodeId} {target : Ty}
    (visits : Visits limit origin results node kind kind.children [] before middle)
    (slot : (Category.expression, child) ∈ kind.slots)
    (widened : Widened limit origin results node child kind target
      (Covered origin kind.children before middle) middle state cast)
    (obeys : state.Clean → (kind.map (NodeKind.swap child cast)).Obeys state.type? own results) :
    Judged limit origin results node kind own before state := by
  have member := NodeKind.slot_is_child slot
  have distinct : kind.children.Nodup := visits.distinct
  have new : origin.arena.size ≤ cast.index :=
    Nat.le_trans visits.sound.size widened.made.1
  obtain ⟨written, source, castKind⟩ := widened.cast
  have slots : ∀ other ∈ (kind.map (NodeKind.swap child cast)).children,
      Covered origin kind.children before middle other ∨ Made middle state other := by
    intro other inside
    rw [NodeKind.children_map] at inside
    obtain ⟨seen, seenMember, rfl⟩ := List.mem_map.mp inside
    unfold NodeKind.swap
    split
    · exact Or.inr widened.made
    · exact Or.inl (Visits.child_covered seenMember)
  refine ⟨middle, kind.map (NodeKind.swap child cast), visits, widened.rewrites,
    ⟨widened.parent, .parsed visits.found ?_ ?_, ?_, ?_, obeys⟩, slots⟩
  · have equal : kind.Alike (fun _ first second => first = second) kind :=
      .refl (fun _ _ => rfl) kind
    refine equal.map_right (NodeKind.swap child cast) ?_
    rintro category first _ inside - rfl
    unfold NodeKind.swap
    split
    · rename_i same
      subst same
      rw [NodeKind.slot_category_unique distinct inside slot]
      exact Or.inr ⟨new, .cast castKind⟩
    · exact Or.inl rfl
  · intro operator left right same
    cases kind with
    | binary _ first second =>
        simp only [NodeKind.map, NodeKind.binary.injEq] at same
        obtain ⟨-, rfl, rfl⟩ := same
        have different : first ≠ second := by simpa [NodeKind.children] using distinct
        -- Only one of the two slots held the child.
        by_cases held : first = child
        · right
          rw [NodeKind.swap_of_ne fun also => different (held.trans also.symm)]
          exact visits.child_bound (by simp [NodeKind.children])
        · left
          rw [NodeKind.swap_of_ne held]
          exact visits.child_bound (by simp [NodeKind.children])
    | _ => simp [NodeKind.map] at same
  · apply visits.joined widened.rewrites.spans
    intro other inside
    rw [NodeKind.children_map] at inside
    obtain ⟨seen, seenMember, rfl⟩ := List.mem_map.mp inside
    refine ⟨seen, seenMember, ?_⟩
    unfold NodeKind.swap
    split
    · rename_i same
      subst same
      have bound := visits.work.settled.bounded (Visits.child_covered seenMember)
      exact widened.span.trans (widened.rewrites.spans seen bound).symm
    · rfl
  · intro other inside
    rw [NodeKind.children_map] at inside
    obtain ⟨seen, seenMember, rfl⟩ := List.mem_map.mp inside
    unfold NodeKind.swap
    split
    · rw [widened.span]
      exact visits.child_spanned member
    · rw [widened.rewrites.spans seen
        (visits.work.settled.bounded (Visits.child_covered seenMember))]
      exact visits.child_spanned seenMember

namespace Judged

/-- Reports and declarations of the node may follow. -/
theorem noted (judged : Judged limit origin results node kind own before state)
    (noted : Noted limit origin (fun id => id = node) state after) :
    Judged limit origin results node kind own before after := by
  obtain ⟨middle, now, visits, rewrites, fine, slots⟩ := judged
  have later : Rewrites limit origin results (fun id => id = node)
      (Covered origin kind.children before middle) middle after :=
    rewrites.trans (.of_noted rewrites.settled noted) fun _ same _ => same
  refine ⟨middle, now, visits, later, fine.of_same_tree noted.tree noted.leaves.clean, ?_⟩
  unfold Made InferenceState.size
  rw [noted.tree]
  exact slots

theorem reported {diagnostic : DiagnosticKind}
    (judged : Judged limit origin results node kind own before state)
    (report : Reported limit origin diagnostic state after) :
    Judged limit origin results node kind own before after :=
  judged.noted (report.noted _)

theorem sound (judged : Judged limit origin results node kind own before after) :
    Sound limit origin after := by
  obtain ⟨middle, now, visits, rewrites, -, -⟩ := judged
  exact rewrites.sound

theorem node_spanned (judged : Judged limit origin results node kind own before after) :
    (after.span? node).isSome := by
  obtain ⟨middle, now, visits, rewrites, -, -⟩ := judged
  have old : node.index < middle.size :=
    Nat.lt_of_lt_of_le (Arena.kind_bound visits.found) visits.sound.size
  rw [rewrites.spans node old]
  exact visits.node_spanned

theorem child_spanned (judged : Judged limit origin results node kind own before after)
    (member : child ∈ kind.children) : (after.span? child).isSome := by
  obtain ⟨middle, now, visits, rewrites, -, -⟩ := judged
  rw [rewrites.spans child (visits.work.settled.bounded (Visits.child_covered member))]
  exact visits.child_spanned member

end Judged

/-- Steps that rewrite only what was worked on may follow. -/
theorem Worked.rewritten {done : List NodeId} {changed : Region}
    (work : Worked limit origin results done before middle)
    (rewrites : Rewrites limit origin results changed (Covered origin done before middle)
      middle after)
    (covered : ∀ id, changed id → id.index < before.size → Below origin done id)
    (old : ∀ child ∈ done, child.index < middle.size) :
    Worked limit origin results done before after where
  sound := rewrites.sound
  leaves := work.leaves.trans rewrites.leaves covered
  settled := by
    refine rewrites.settled.congr fun id => ?_
    unfold Covered
    rw [made_split work.leaves.size rewrites.leaves.size]
    tauto
  spans child member := (rewrites.spans child (old child member)).trans (work.spans child member)

/-- Reports may come between the visits. -/
theorem Visits.noted {done rest : List NodeId}
    (visits : Visits limit origin results node kind done rest before middle)
    (noted : Noted limit origin (fun _ => False) middle after) :
    Visits limit origin results node kind done rest before after := by
  refine ⟨visits.constructed, visits.found, visits.order, visits.start, visits.untouched, ?_⟩
  refine visits.work.rewritten (.of_noted visits.work.settled noted) (fun _ inside _ => inside.elim) ?_
  exact fun child member => visits.work.settled.bounded (Visits.child_covered member)

theorem Worked.noted (work : Worked limit origin results [node] before middle)
    (noted : Noted limit origin (fun id => id = node) middle after) :
    Worked limit origin results [node] before after := by
  have covered : Covered origin [node] before middle node := Visits.child_covered (by simp)
  refine work.rewritten (.of_noted work.settled noted) ?_ ?_
  · rintro id rfl _
    exact below_singleton.mpr .refl
  · intro child member
    rw [List.mem_singleton] at member
    subst member
    exact work.settled.bounded covered

/-- A node that is judged with the type that it has is worked on. -/
theorem worked_of_judged
    (judged : Judged limit origin results node kind (after.type? node) before after) :
    Worked limit origin results [node] before after := by
  obtain ⟨middle, now, visits, rewrites, fine, slots⟩ := judged
  have old : node.index < middle.size :=
    Nat.lt_of_lt_of_le (Arena.kind_bound visits.found) visits.sound.size
  refine ⟨rewrites.sound, ?_, ?_, ?_⟩
  · have first : Leaves (Below origin [node]) before middle :=
      visits.work.leaves.weaken fun id inside => (below_children visits.found).mpr (Or.inr inside)
    refine first.trans rewrites.leaves ?_
    rintro id rfl _
    exact below_singleton.mpr .refl
  · refine (rewrites.settled.insert fine slots).congr fun id => ?_
    unfold Covered
    rw [below_children visits.found, made_split visits.work.leaves.size rewrites.leaves.size]
    tauto
  · intro other member
    rw [List.mem_singleton] at member
    subst member
    exact (rewrites.spans other old).trans visits.node_same.2

/-- The type of a judged node is stored. -/
theorem yields_typed (judged : Judged limit origin results node kind own before state) :
    Yields (setType node own) state fun _ final =>
      Worked limit origin results [node] before final ∧ final.type? node = own := by
  obtain ⟨middle, now, visits, rewrites, fine, slots⟩ := judged
  have old : node.index < middle.size :=
    Nat.lt_of_lt_of_le (Arena.kind_bound visits.found) visits.sound.size
  have outside : ¬ (Covered origin kind.children before middle node ∨ Made middle state node) := by
    rintro (inside | ⟨lower, -⟩)
    · exact visits.node_uncovered inside
    · omega
  rw [yields_set_type]
  have stored := rewrites_set_type rewrites.sound rewrites.settled outside own
  have type : (state.withArena (state.tree.arena.setType node own)).type? node = own :=
    Arena.type_set_type (Nat.lt_of_lt_of_le old rewrites.leaves.size) own
  have kinds : ∀ id, (state.withArena (state.tree.arena.setType node own)).kind? id =
      state.kind? id := fun id => Arena.kind?_setType _ _ _ _
  refine ⟨worked_of_judged ⟨middle, now, visits, rewrites.trans stored fun _ same _ => same, ?_, ?_⟩,
    type⟩
  · rw [type]
    refine ⟨(kinds node).trans fine.found, ?_, ?_, fine.spanned, fun clean => ?_⟩
    · cases fine.traced with
      | parsed found alike single =>
          exact .parsed found (alike.imp fun _ _ second _ stands =>
            SourceTree.stands_of_same (kinds second) stands) single
      | added new form => exact absurd (Arena.kind_bound visits.found) (Nat.not_lt.mpr new)
    · exact ⟨fine.joined.covers, fine.joined.follows⟩
    · refine NodeKind.obeys_of_same_types ?_ (fine.obeys clean)
      intro child member
      have apart : child ≠ node := by
        rintro rfl
        exact outside (slots child member)
      refine Arena.type_of_node ?_
      change (state.tree.arena.setType node own).node? child = _
      rw [Arena.node_set_type, if_neg (Ne.symm apart)]
  · intro child member
    obtain covered | ⟨lower, upper⟩ := slots child member
    · exact Or.inl covered
    · exact Or.inr ⟨lower, Nat.lt_of_lt_of_le upper stored.leaves.size⟩

end ModuleLang.Inference
