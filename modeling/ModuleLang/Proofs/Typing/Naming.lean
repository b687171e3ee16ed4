import ModuleLang.Proofs.Typing.Frame

/-!
Names in expressions. The rules for expressions declare nothing, and only the rule
for a name gives a type to it. So after an expression that was inferred without
an error, every name in it is visible and has the type of what it stands for.
-/

namespace ModuleLang.Inference

variable {limit : Position} {origin : SourceTree} {environment : Environment}

/-- No name was declared, and no report was taken back. -/
structure Undeclared (before after : InferenceState) : Prop where
  scopes : after.scopes = before.scopes
  duplicates : after.duplicates = before.duplicates
  diagnostics : before.diagnostics <+: after.diagnostics

theorem undeclared_frame : Frame Undeclared where
  refl _ := ⟨rfl, rfl, List.prefix_refl _⟩
  trans first second := ⟨second.scopes.trans first.scopes, second.duplicates.trans first.duplicates,
    first.diagnostics.trans second.diagnostics⟩
  tree _ _ := ⟨rfl, rfl, List.prefix_refl _⟩
  report _ _ _ := ⟨rfl, rfl, List.prefix_append _ _⟩

theorem clean_of_grown {before after : InferenceState}
    (grows : before.diagnostics <+: after.diagnostics) (clean : after.Clean) : before.Clean := by
  obtain ⟨more, same⟩ := grows
  unfold InferenceState.Clean Diagnostic.hasErrors at *
  rw [← same, List.any_append, Bool.or_eq_false_iff] at clean
  exact clean.1

/-- With an error added, a state is not clean. -/
theorem not_clean_of_added {state : InferenceState} {found : Diagnostic} {kind : DiagnosticKind}
    (same : found.kind = kind) (error : kind.level = .error) :
    ¬ InferenceState.Clean { state with diagnostics := state.diagnostics ++ [found] } := by
  intro clean
  unfold InferenceState.Clean Diagnostic.hasErrors at clean
  rw [List.any_append, Bool.or_eq_false_iff] at clean
  have own := clean.2
  rw [List.any_cons, Bool.or_eq_false_iff, Diagnostic.isError, Diagnostic.level, same, error] at own
  cases own.1

theorem Undeclared.clean {before after : InferenceState} (same : Undeclared before after)
    (clean : after.Clean) : before.Clean :=
  clean_of_grown same.diagnostics clean

/-- The nodes that there were have kept their types. -/
structure Steady (before after : InferenceState) : Prop where
  size : before.size ≤ after.size
  types : ∀ id, id.index < before.size → after.type? id = before.type? id

/-- No name was declared, and no type of a node was changed. -/
structure Mild (before after : InferenceState) : Prop extends Undeclared before after,
    Steady before after

theorem mild_chain : Chained Mild where
  refl state := ⟨undeclared_frame.refl state, Nat.le_refl _, fun _ _ => rfl⟩
  trans first second := ⟨undeclared_frame.trans first.toUndeclared second.toUndeclared,
    Nat.le_trans first.size second.size, fun id old =>
      (second.types id (Nat.lt_of_lt_of_le old first.size)).trans (first.types id old)⟩

section Steps

variable {start final : InferenceState} {node : NodeId} {kind : NodeKind NodeId}

theorem steady_of_tree (same : final.tree = start.tree) : Steady start final := by
  refine ⟨Nat.le_of_eq ?_, fun id _ => ?_⟩
  · unfold InferenceState.size
    rw [same]
  · unfold InferenceState.type?
    rw [same]

theorem keeps_mild_report (id : NodeId) (found : DiagnosticKind) :
    Keeps Mild (report environment id found) := by
  intro start _ final ran
  obtain ⟨_, -, rfl⟩ := report_adds ran
  exact ⟨⟨rfl, rfl, List.prefix_append _ _⟩, steady_of_tree rfl⟩

/-- A node that is added is the last one, and the others stay as they are. -/
structure Adds (kind : NodeKind NodeId) (node : NodeId) (before after : InferenceState) :
    Prop where
  new : node = ⟨before.size⟩
  size : after.size = before.size + 1
  found : after.kind? node = some kind
  old : ∀ id, id.index < before.size →
    after.kind? id = before.kind? id ∧ after.type? id = before.type? id

theorem Adds.steady (adds : Adds kind node start final) : Steady start final :=
  ⟨by rw [adds.size]; exact Nat.le_succ _, fun id old => (adds.old id old).2⟩

theorem ran_alloc (ran : Ran (onTree (SourceTree.alloc kind)) start node final) :
    Adds kind node start final := by
  cases ran
  have same : ∀ id : NodeId, id.index < start.size →
      (start.tree.arena.alloc kind).2.node? id = start.tree.arena.node? id := fun id old => by
    rw [Arena.node?_alloc, if_neg (Nat.ne_of_lt old)]
  refine ⟨rfl, Arena.size_alloc _ _, ?_, fun id old =>
    ⟨Arena.kind_of_node (same id old), Arena.type_of_node (same id old)⟩⟩
  change (start.tree.arena.alloc kind).2.kind? _ = _
  rw [Arena.kind_alloc, if_pos rfl]

theorem ran_on_tree {value : Type} {action : SourceTree.Action value} {result : value}
    (ran : Ran (onTree action) start result final) :
    ∃ tree, Ran action start.tree result tree ∧ final = { start with tree } := by
  unfold Ran EStateM.run onTree at ran
  split at ran
  · rename_i found tree done
    cases ran
    exact ⟨tree, done, rfl⟩
  · cases ran

theorem ran_spans {value : Type} {action : SpanTable.Action value} {result : value}
    (ran : Ran (onTree (SourceTree.onSpans action)) start result final) :
    ∃ spans, Ran action start.tree.spans result spans ∧
      final = { start with tree := { start.tree with spans } } := by
  rcases ran_on_tree ran with ⟨tree, inside, rfl⟩
  unfold Ran EStateM.run SourceTree.onSpans at inside
  split at inside
  · rename_i found spans done
    cases inside
    exact ⟨spans, done, rfl⟩
  · cases inside

/-- Spans are no part of the nodes. -/
theorem ran_on_spans {value : Type} {action : SpanTable.Action value} {result : value}
    (ran : Ran (onTree (SourceTree.onSpans action)) start result final) :
    final.tree.arena = start.tree.arena := by
  rcases ran_spans ran with ⟨spans, -, rfl⟩
  rfl

theorem Adds.of_arena {later : InferenceState} (adds : Adds kind node start final)
    (same : later.tree.arena = final.tree.arena) : Adds kind node start later := by
  obtain ⟨new, size, found, old⟩ := adds
  unfold InferenceState.size InferenceState.kind? InferenceState.type? at *
  rw [← same] at size found old
  exact ⟨new, size, found, old⟩

/-- The type of the new node is stored. -/
theorem Adds.typed {later : InferenceState} {type : Option Ty} (adds : Adds kind node start final)
    (ran : Ran (setType node type) final ⟨⟩ later) :
    Adds kind node start later ∧ later.type? node = type := by
  cases ran
  have kinds : ∀ id, (final.tree.arena.setType node type).kind? id = final.kind? id :=
    fun id => Arena.kind?_setType _ _ _ _
  have bound : node.index < final.size := Arena.kind_bound adds.found
  refine ⟨⟨adds.new, (Arena.size_setType _ _ _).trans adds.size, (kinds node).trans adds.found,
    fun id old => ⟨(kinds id).trans (adds.old id old).1, ?_⟩⟩, Arena.type_set_type bound _⟩
  have apart : node ≠ id := by
    rintro rfl
    rw [adds.new] at old
    exact Nat.lt_irrefl _ old
  refine Eq.trans (Arena.type_of_node ?_) (adds.old id old).2
  exact (Arena.node_set_type _ _ _ _).trans (if_neg apart)

theorem ran_add {source : NodeId} (ran : Ran (add kind source) start node final) :
    Adds kind node start final := by
  obtain ⟨_, _, first, ran⟩ := ran_bind.mp ran
  obtain ⟨_, _, second, ran⟩ := ran_bind.mp ran
  cases ran
  exact (ran_alloc first).of_arena (ran_on_spans second)

theorem ran_add_type_ref {type : Ty} {source : NodeId}
    (ran : Ran (addTypeRef type source) start node final) :
    Adds (.typeRef type.layers.1.text type.layers.2) node start final := by
  obtain ⟨_, _, first, ran⟩ := ran_bind.mp ran
  obtain ⟨_, _, second, ran⟩ := ran_bind.mp ran
  obtain ⟨_, _, third, ran⟩ := ran_bind.mp ran
  cases ran
  exact ((ran_alloc first).typed second).1.of_arena (ran_on_spans third)

/-- What a replacement does. -/
theorem ran_replaced {parent old new : NodeId} {expected : String} {result : Unit}
    (ran : Ran (onTree (SourceTree.replaceChild parent old new expected)) start result final) :
    ∃ before after, start.kind? parent = some before ∧ before.replaceChild? old new = some after ∧
      final = start.withArena (start.tree.arena.setKind parent after) := by
  rcases ran_on_tree ran with ⟨tree, inside, rfl⟩
  rcases ran_bind.mp inside with ⟨_, _, got, changed⟩
  cases got
  split at changed
  · rename_i arena replaced
    cases changed
    unfold Arena.replaceChild? at replaced
    rcases Option.map_eq_some_iff.mp replaced with ⟨after, found, rfl⟩
    rcases Option.bind_eq_some_iff.mp found with ⟨before, known, done⟩
    exact ⟨before, after, known, done, rfl⟩
  · cases changed

/-- A slot of one node is changed, and nothing else. -/
theorem ran_replace_child {parent old new : NodeId} {expected : String} {result : Unit}
    (ran : Ran (onTree (SourceTree.replaceChild parent old new expected)) start result final) :
    ∃ before after, start.kind? parent = some before ∧ before.replaceChild? old new = some after ∧
      final.kind? parent = some after ∧ final.size = start.size ∧
      (∀ id, final.type? id = start.type? id) ∧
      ∀ id, id ≠ parent → final.kind? id = start.kind? id := by
  rcases ran_replaced ran with ⟨before, after, known, replaced, rfl⟩
  refine ⟨before, after, known, replaced, Arena.kind_set_kind (Arena.kind_bound known) _,
    Arena.size_setKind _ _ _, fun id => Arena.type?_setKind _ _ _ _, fun id apart => ?_⟩
  refine Arena.kind_of_node ?_
  exact (Arena.node_set_kind _ _ _ _).trans (if_neg (Ne.symm apart))

/-- A cast is put between two nodes; no other slot is changed. -/
theorem ran_insert_cast {parent child : NodeId} {target : Ty} {result : Unit}
    (ran : Ran (insertCast parent child target) start result final) :
    Steady start final ∧ (parent.index < start.size → ∃ before after cast,
      start.kind? parent = some before ∧ before.replaceChild? child cast = some after ∧
      final.kind? parent = some after ∧ start.size ≤ cast.index) ∧
      ∀ id, id.index < start.size → id ≠ parent → final.kind? id = start.kind? id := by
  obtain ⟨_, _, got, ran⟩ := ran_bind.mp ran
  cases got
  obtain ⟨written, first, wrote, ran⟩ := ran_bind.mp ran
  obtain ⟨cast, second, added, ran⟩ := ran_bind.mp ran
  obtain ⟨_, third, replaced, typed⟩ := ran_bind.mp ran
  have wrote := ran_add_type_ref wrote
  have added := ran_add added
  obtain ⟨before, after, known, change, now, size, types, kinds⟩ := ran_replace_child replaced
  have castNew : cast.index = first.size := congrArg NodeId.index added.new
  have firstSize := wrote.size
  have secondSize := added.size
  cases typed
  have laterKinds : ∀ id, (third.tree.arena.setType cast (some target)).kind? id = third.kind? id :=
    fun id => Arena.kind?_setType _ _ _ _
  refine ⟨⟨?_, fun id old => ?_⟩, fun bound => ⟨before, after, cast, ?_, change,
    (laterKinds parent).trans now, by omega⟩, fun id old apart => ?_⟩
  · change _ ≤ (Arena.setType _ _ _).size
    rw [Arena.size_setType]
    change _ ≤ third.size
    omega
  · have apart : cast ≠ id := by
      rintro rfl
      omega
    refine Eq.trans (Arena.type_of_node ((Arena.node_set_type _ _ _ _).trans (if_neg apart))) ?_
    exact (types id).trans ((added.old id (by omega)).2.trans (wrote.old id old).2)
  · rw [← (wrote.old parent bound).1, ← (added.old parent (by omega)).1]
    exact known
  · refine (laterKinds id).trans ((kinds id apart).trans ?_)
    rw [(added.old id (by omega)).1, (wrote.old id old).1]

theorem keeps_mild_insert_cast (parent child : NodeId) (target : Ty) :
    Keeps Mild (insertCast parent child target) :=
  fun _ _ _ ran => ⟨undeclared_frame.keeps_insert_cast _ _ _ _ _ _ ran, (ran_insert_cast ran).1⟩

theorem keeps_mild_check_index (parent index : NodeId) (type : Option Ty) :
    Keeps Mild (checkIndex environment parent index type) := by
  unfold checkIndex
  split
  · exact mild_chain.keeps_pure _
  · split
    · exact mild_chain.keeps_pure _
    · split
      · exact keeps_mild_insert_cast _ _ _
      · exact keeps_mild_report _ _

theorem keeps_mild_common_type (node : NodeId) (operator : BinaryOperator) (left right : NodeId)
    (leftType rightType : Option Ty) :
    Keeps Mild (commonType environment node operator left right leftType rightType) := by
  unfold commonType
  split
  · exact mild_chain.keeps_pure _
  · split
    · exact mild_chain.keeps_pure _
    · unfold unify
      split
      · exact mild_chain.keeps_pure _
      · exact mild_chain.keeps_bind (keeps_mild_insert_cast _ _ _) fun _ => mild_chain.keeps_pure _
      · exact mild_chain.keeps_bind (keeps_mild_insert_cast _ _ _) fun _ => mild_chain.keeps_pure _
      · exact mild_chain.keeps_bind (keeps_mild_report _ _) fun _ => mild_chain.keeps_pure _
    · exact mild_chain.keeps_bind (keeps_mild_report _ _) fun _ => mild_chain.keeps_pure _

theorem keeps_mild_set_cast_source (node : NodeId) (source : Option Ty) :
    Keeps Mild (setCastSource node source) := by
  refine mild_chain.keeps_bind (mild_chain.keeps_bind mild_chain.keeps_get fun _ =>
    mild_chain.keeps_pure _) fun _ => ?_
  split
  · intro start _ final ran
    cases ran
    exact ⟨⟨rfl, rfl, List.prefix_refl _⟩, Nat.le_of_eq (Arena.size_setKind _ _ _).symm,
      fun id _ => Arena.type?_setKind _ _ _ _⟩
  · exact mild_chain.keeps_pure _

end Steps

/-- The names below some nodes are visible and have the types of what they stand
for. -/
def Named (origin : SourceTree) (scopes : Scopes) (nodes : List NodeId) (state : InferenceState) :
    Prop :=
  ∀ id name, Below origin nodes id → origin.arena.kind? id = some (.member name) →
    ∃ binding, scopes.lookup name = some binding ∧ state.type? id = binding.type

theorem Named.later {scopes : Scopes} {nodes : List NodeId} {before after : InferenceState}
    (named : Named origin scopes nodes before)
    (types : ∀ id, Below origin nodes id → after.type? id = before.type? id) :
    Named origin scopes nodes after := by
  intro id name inside known
  obtain ⟨binding, visible, typed⟩ := named id name inside known
  exact ⟨binding, visible, (types id inside).trans typed⟩

theorem Named.append {scopes : Scopes} {first second : List NodeId} {state : InferenceState}
    (left : Named origin scopes first state) (right : Named origin scopes second state) :
    Named origin scopes (first ++ second) state := by
  intro id name inside known
  obtain inside | inside := Worked.below_append.mp inside
  · exact left id name inside known
  · exact right id name inside known

/-- There is no name in a type. -/
theorem named_of_type {scopes : Scopes} {node : NodeId} (state : InferenceState)
    (admitted : origin.arena.Admitted .type node) : Named origin scopes [node] state := by
  obtain ⟨kind, found, admits⟩ := admitted
  intro id name inside known
  cases kind with
  | typeRef written ranks =>
      rw [below_children found] at inside
      obtain rfl | ⟨_, none, -⟩ := inside
      · cases found.symm.trans known
      · cases none
  | _ => cases admits

section Rules

variable {infer : NodeId → Inference (Option Ty)} {node child : NodeId} {kind : NodeKind NodeId}
  {done rest : List NodeId} {scopes : Scopes} {before state final : InferenceState}

/-- Children of a node are visited one after the other; the names below those that
were visited have their types. -/
structure Naming (limit : Position) (origin : SourceTree) (scopes : Scopes) (node : NodeId)
    (kind : NodeKind NodeId) (done rest : List NodeId) (before state : InferenceState) : Prop where
  visits : Visits limit origin (fun _ => False) node kind done rest before state
  visible : state.scopes = scopes
  named : state.Clean → Named origin scopes done state

/-- The inference of subexpressions with a number below `bound` gives names their
types. -/
def Names (limit : Position) (origin : SourceTree) (bound : Nat)
    (infer : NodeId → Inference (Option Ty)) : Prop :=
  ∀ node state type final, node.index < bound → origin.arena.Admitted .expression node →
    Ready limit origin node state → Ran (infer node) state type final →
    Undeclared state final ∧ (final.Clean → Named origin state.scopes [node] final)

theorem Naming.begin (constructed : origin.Constructed limit)
    (found : origin.arena.kind? node = some kind) (ready : Ready limit origin node state) :
    Naming limit origin state.scopes node kind [] kind.children state state :=
  ⟨.begin constructed found ready.sound ready.untouched, rfl,
    fun _ id _ inside => by obtain ⟨_, none, -⟩ := inside; cases none⟩

/-- Names that were visited keep their types while the next child is worked on. -/
theorem Naming.next
    (naming : Naming limit origin scopes node kind done (child :: rest) before state)
    (work : Passed limit origin [child] state final) (same : Undeclared state final)
    (named : final.Clean → Named origin scopes [child] final) :
    Naming limit origin scopes node kind (done ++ [child]) rest before final where
  visits := naming.visits.next work
  visible := same.scopes.trans naming.visible
  named clean := by
    refine .append ((naming.named (same.clean clean)).later fun id inside => ?_) (named clean)
    have bound := below_bounded naming.visits.constructed (fun earlier member =>
      naming.visits.child_bound (List.mem_append_left _ member)) inside
    have old := Nat.lt_of_lt_of_le bound naming.visits.sound.size
    exact Arena.type_of_node (work.leaves.node id old (naming.visits.next_apart inside))

variable (names : Names limit origin node.index infer)
  (infers : Infers limit origin (fun _ => False) node.index infer)

include names infers in
theorem Naming.visit {type : Option Ty}
    (naming : Naming limit origin scopes node kind done (child :: rest) before state)
    (slot : (Category.expression, child) ∈ kind.slots) (ran : Ran (infer child) state type final) :
    Naming limit origin scopes node kind (done ++ [child]) rest before final := by
  have below := naming.visits.below_index
    (List.mem_append_right done (List.mem_cons_self (l := rest)))
  have admitted := naming.visits.constructed.admitted naming.visits.found _ slot
  have untouched := naming.visits.next_untouched
  obtain ⟨work, -⟩ := (infers child state below admitted naming.visits.sound untouched).of_ran ran
  obtain ⟨same, named⟩ := names child state type final below admitted
    ⟨naming.visits.sound, untouched⟩ ran
  exact naming.next work same fun clean => naming.visible ▸ named clean

theorem Naming.visit_type {type : Option Ty}
    (naming : Naming limit origin scopes node kind done (child :: rest) before state)
    (slot : (Category.type, child) ∈ kind.slots)
    (ran : Ran (resolveType environment child) state type final) :
    Naming limit origin scopes node kind (done ++ [child]) rest before final := by
  have admitted := naming.visits.constructed.admitted naming.visits.found _ slot
  obtain ⟨work, -⟩ := (yields_resolve_type (fun _ => False) naming.visits.constructed admitted
    naming.visits.sound naming.visits.next_untouched).of_ran ran
  exact naming.next work (undeclared_frame.keeps_resolve_type environment child _ _ _ ran)
    fun _ => named_of_type final admitted

include names infers in
theorem Naming.visit_all {types : List (Option Ty)} {arguments : List NodeId}
    (naming : Naming limit origin scopes node kind done arguments before state)
    (slots : ∀ argument ∈ arguments, (Category.expression, argument) ∈ kind.slots)
    (ran : Ran (arguments.mapM infer) state types final) :
    Naming limit origin scopes node kind (done ++ arguments) [] before final := by
  induction arguments generalizing done state types with
  | nil =>
      rw [List.mapM_nil] at ran
      cases ran
      rw [List.append_nil]
      exact naming
  | cons argument arguments ih =>
      rw [List.mapM_cons] at ran
      obtain ⟨_, _, first, ran⟩ := ran_bind.mp ran
      obtain ⟨_, _, more, ran⟩ := ran_bind.mp ran
      cases ran
      have later := naming.visit names infers (slots argument List.mem_cons_self) first
      have whole := ih later (fun other member => slots other (List.mem_cons_of_mem _ member)) more
      rw [List.append_assoc, List.singleton_append] at whole
      exact whole

/-- Once all children are visited, steps that change no type may follow. -/
theorem Naming.finish (naming : Naming limit origin scopes node kind done [] before state)
    (mild : Mild state final) (clean : final.Clean) : Named origin scopes kind.children final := by
  have order := naming.visits.order
  rw [List.append_nil] at order
  intro id name inside known
  have inside : Below origin done id := by
    obtain ⟨child, member, below⟩ := inside
    exact ⟨child, order.mem_iff.mpr member, below⟩
  obtain ⟨binding, visible, typed⟩ := naming.named (mild.clean clean) id name inside known
  have old := Nat.lt_of_lt_of_le (Arena.kind_bound known) naming.visits.sound.size
  exact ⟨binding, visible, (mild.types id old).trans typed⟩

include names infers

theorem named_member_access {owner : NodeId} {name : String} {type : Option Ty}
    (naming : Naming limit origin scopes node (.memberAccess owner name) [] [owner] before state)
    (ran : Ran (memberAccess environment infer node owner name) state type final)
    (clean : final.Clean) : Named origin scopes [owner] final := by
  obtain ⟨_, visited, first, ran⟩ := ran_bind.mp ran
  have naming := naming.visit names infers (by simp [NodeKind.slots]) first
  have silent : ∀ {tail : Inference (Option Ty)}, Ran tail visited type final →
      Keeps Mild tail → Named origin scopes [owner] final :=
    fun ran mild => naming.finish (mild _ _ _ ran) clean
  refine silent ran ?_
  split
  · split
    · exact mild_chain.keeps_pure _
    · exact mild_chain.keeps_bind (keeps_mild_report _ _) fun _ => mild_chain.keeps_pure _
  · exact mild_chain.keeps_pure _

theorem named_index_access {target index : NodeId} {type : Option Ty}
    (naming : Naming limit origin scopes node (.indexAccess target index) [] [target, index] before
      state) (ran : Ran (indexAccess environment infer node target index) state type final)
    (clean : final.Clean) : Named origin scopes [target, index] final := by
  obtain ⟨_, _, first, ran⟩ := ran_bind.mp ran
  have naming := naming.visit names infers (by simp [NodeKind.slots]) first
  obtain ⟨_, _, second, ran⟩ := ran_bind.mp ran
  have naming := naming.visit names infers (by simp [NodeKind.slots]) second
  obtain ⟨_, checked, third, ran⟩ := ran_bind.mp ran
  have mild := keeps_mild_check_index _ _ _ _ _ _ third
  split at ran
  · cases ran
    exact naming.finish mild clean
  · cases ran
    exact naming.finish mild clean
  all_goals
    obtain ⟨_, _, reported, ran⟩ := ran_bind.mp ran
    cases ran
    exact naming.finish (mild_chain.trans mild (keeps_mild_report _ _ _ _ _ reported)) clean

theorem named_binary {operator : BinaryOperator} {left right : NodeId} {type : Option Ty}
    (naming : Naming limit origin scopes node (.binary operator left right) [] [left, right] before
      state) (ran : Ran (binary environment infer node operator left right) state type final)
    (clean : final.Clean) : Named origin scopes [left, right] final := by
  obtain ⟨_, _, first, ran⟩ := ran_bind.mp ran
  have naming := naming.visit names infers (by simp [NodeKind.slots]) first
  obtain ⟨_, _, second, ran⟩ := ran_bind.mp ran
  have naming := naming.visit names infers (by simp [NodeKind.slots]) second
  obtain ⟨_, _, third, ran⟩ := ran_bind.mp ran
  cases ran
  exact naming.finish (keeps_mild_common_type _ _ _ _ _ _ _ _ _ third) clean

theorem named_unary {operator : UnaryOperator} {operand : NodeId} {type : Option Ty}
    (naming : Naming limit origin scopes node (.unary operator operand) [] [operand] before state)
    (ran : Ran (unary environment infer node operator operand) state type final)
    (clean : final.Clean) : Named origin scopes [operand] final := by
  obtain ⟨found, _, first, ran⟩ := ran_bind.mp ran
  have naming := naming.visit names infers (by simp [NodeKind.slots]) first
  split at ran
  · cases ran
    exact naming.finish (mild_chain.refl _) clean
  · dsimp only at ran
    split at ran
    · obtain ⟨_, _, reported, ran⟩ := ran_bind.mp ran
      cases ran
      exact naming.finish (keeps_mild_report _ _ _ _ _ reported) clean
    · cases ran
      exact naming.finish (mild_chain.refl _) clean

theorem named_call {name : String} {arguments : List NodeId} {type : Option Ty}
    (naming : Naming limit origin scopes node (.call name arguments) [] arguments before state)
    (ran : Ran (call environment infer node name arguments) state type final)
    (clean : final.Clean) : Named origin scopes arguments final := by
  obtain ⟨_, _, got, ran⟩ := ran_bind.mp ran
  cases got
  obtain ⟨_, _, visited, ran⟩ := ran_bind.mp ran
  have naming := naming.visit_all names infers
    (fun argument member => by simp [NodeKind.slots, member]) visited
  obtain ⟨_, _, got, ran⟩ := ran_bind.mp ran
  cases got
  dsimp only at ran
  split at ran
  · cases ran
    exact naming.finish (mild_chain.refl _) clean
  · split at ran
    · obtain ⟨_, _, reported, ran⟩ := ran_bind.mp ran
      cases ran
      exact naming.finish (keeps_mild_report _ _ _ _ _ reported) clean
    · cases ran
      exact naming.finish (mild_chain.refl _) clean

theorem named_construct {written : NodeId} {arguments : List NodeId} {type : Option Ty}
    (naming : Naming limit origin scopes node (.construct written arguments) []
      (written :: arguments) before state)
    (ran : Ran (do
      let constructed ← resolveType environment written
      arguments.forM fun argument => do let _ ← infer argument
      return constructed) state type final)
    (clean : final.Clean) : Named origin scopes (written :: arguments) final := by
  obtain ⟨_, _, first, ran⟩ := ran_bind.mp ran
  have naming := naming.visit_type (by simp [NodeKind.slots]) first
  obtain ⟨_, _, visited, ran⟩ := ran_bind.mp ran
  cases ran
  have whole : ∀ (left done : List NodeId) (current : InferenceState), left ⊆ arguments →
      Naming limit origin scopes node (.construct written arguments) done left before current →
      Ran (left.forM fun argument => do let _ ← infer argument) current ⟨⟩ final →
      Naming limit origin scopes node (.construct written arguments) (done ++ left) [] before
        final := by
    intro left
    induction left with
    | nil =>
        intro done current _ naming ran
        cases ran
        rw [List.append_nil]
        exact naming
    | cons argument left ih =>
        intro done current subset naming ran
        obtain ⟨_, _, head, tail⟩ := ran_bind.mp ran
        obtain ⟨_, _, head, done'⟩ := ran_bind.mp head
        cases done'
        have slot : (Category.expression, argument) ∈
            (NodeKind.construct written arguments).slots := by
          simp [NodeKind.slots, subset List.mem_cons_self]
        have rest := ih _ _ (fun other member => subset (List.mem_cons_of_mem _ member))
          (naming.visit names infers slot head) tail
        rw [List.append_assoc, List.singleton_append] at rest
        exact rest
  exact (whole arguments _ _ (fun _ => id) naming visited).finish (mild_chain.refl _) clean

theorem named_new_array {element length : NodeId} {type : Option Ty}
    (naming : Naming limit origin scopes node (.newArray element length) [] [element, length] before
      state) (ran : Ran (newArray environment infer node element length) state type final)
    (clean : final.Clean) : Named origin scopes [element, length] final := by
  obtain ⟨_, _, first, ran⟩ := ran_bind.mp ran
  have naming := naming.visit_type (by simp [NodeKind.slots]) first
  obtain ⟨_, _, second, ran⟩ := ran_bind.mp ran
  have naming := naming.visit names infers (by simp [NodeKind.slots]) second
  obtain ⟨_, _, third, ran⟩ := ran_bind.mp ran
  cases ran
  exact naming.finish (keeps_mild_check_index _ _ _ _ _ _ third) clean

theorem named_cast {target inner : NodeId} {source type : Option Ty}
    (naming : Naming limit origin scopes node (.cast target inner source) [] [target, inner] before
      state) (ran : Ran (cast environment infer node target inner) state type final)
    (clean : final.Clean) : Named origin scopes [target, inner] final := by
  obtain ⟨_, _, first, ran⟩ := ran_bind.mp ran
  have naming := naming.visit_type (by simp [NodeKind.slots]) first
  obtain ⟨_, _, second, ran⟩ := ran_bind.mp ran
  have naming := naming.visit names infers (by simp [NodeKind.slots]) second
  obtain ⟨_, noted, third, ran⟩ := ran_bind.mp ran
  have mild := keeps_mild_set_cast_source _ _ _ _ _ third
  have silent : ∀ {tail : Inference (Option Ty)}, Ran tail noted type final →
      Keeps Mild tail → Named origin scopes [target, inner] final :=
    fun ran later => naming.finish (mild_chain.trans mild (later _ _ _ ran)) clean
  refine silent ran ?_
  split
  · split
    · split
      · exact mild_chain.keeps_bind (keeps_mild_report _ _) fun _ => mild_chain.keeps_pure _
      · exact mild_chain.keeps_pure _
    · exact mild_chain.keeps_pure _
  · exact mild_chain.keeps_pure _

/-- What the rule for an expression leaves behind, before its type is stored: the
names below it have their types, and a name itself is given its type. -/
theorem named_expression {type : Option Ty}
    (naming : Naming limit origin scopes node kind [] kind.children before state)
    (expression : kind.isExpression = true)
    (ran : Ran (anyExpression environment infer node) state type final) (clean : final.Clean) :
    Named origin scopes kind.children final ∧ ∀ name, kind = .member name →
      ∃ binding, scopes.lookup name = some binding ∧ type = binding.type := by
  obtain ⟨_, _, got, ran⟩ := ran_bind.mp ran
  cases got
  rw [show state.tree.arena.kind? node = some kind from naming.visits.node_same.1] at ran
  cases kind with
  | literal value =>
      cases ran
      exact ⟨naming.finish (mild_chain.refl _) clean, nofun⟩
  | member name =>
      obtain ⟨_, _, got, ran⟩ := ran_bind.mp ran
      cases got
      split at ran
      · rename_i binding visible
        cases ran
        refine ⟨naming.finish (mild_chain.refl _) clean, ?_⟩
        rintro _ ⟨⟩
        exact ⟨binding, naming.visible ▸ visible, rfl⟩
      · obtain ⟨_, _, reported, ran⟩ := ran_bind.mp ran
        cases ran
        obtain ⟨found, same, rfl⟩ := report_adds reported
        exact absurd clean (not_clean_of_added same rfl)
  | memberAccess owner name => exact ⟨named_member_access names infers naming ran clean, nofun⟩
  | indexAccess target index => exact ⟨named_index_access names infers naming ran clean, nofun⟩
  | binary operator left right => exact ⟨named_binary names infers naming ran clean, nofun⟩
  | unary operator operand => exact ⟨named_unary names infers naming ran clean, nofun⟩
  | call name arguments => exact ⟨named_call names infers naming ran clean, nofun⟩
  | construct type arguments => exact ⟨named_construct names infers naming ran clean, nofun⟩
  | newArray element length => exact ⟨named_new_array names infers naming ran clean, nofun⟩
  | cast target inner source => exact ⟨named_cast names infers naming ran clean, nofun⟩
  | _ => cases expression

end Rules

theorem names_within (constructed : origin.Constructed limit) (budget : Nat) :
    Names limit origin budget (expressionWithin environment budget) := by
  induction budget with
  | zero => exact fun node _ _ _ bound => absurd bound (Nat.not_lt_zero _)
  | succ budget ih =>
      intro node state type final bound admitted ready ran
      have passes : Infers limit origin (fun _ => False) (budget + 1)
          (expressionWithin environment (budget + 1)) := infers_within constructed _
      obtain ⟨work, -⟩ := (passes node state bound admitted ready.sound ready.untouched).of_ran ran
      obtain ⟨kind, found, expression⟩ := admitted
      have names : Names limit origin node.index (expressionWithin environment budget) :=
        fun child state type final below => ih child state type final (by omega)
      have infers : Infers limit origin (fun _ => False) node.index
          (expressionWithin environment budget) :=
        fun child state below => infers_within constructed budget child state (by omega)
      refine ⟨undeclared_frame.keeps_expression_within environment _ _ _ _ _ ran, fun clean => ?_⟩
      obtain ⟨own, judged, rule, ran⟩ := ran_bind.mp ran
      obtain ⟨_, _, typed, ran⟩ := ran_bind.mp ran
      cases ran
      cases typed
      obtain ⟨below, own'⟩ := named_expression names infers (.begin constructed found ready)
        expression rule clean
      have others : ∀ id, id ≠ node →
          (judged.tree.arena.setType node type).type? id = judged.type? id := fun id apart =>
        Arena.type_of_node ((Arena.node_set_type _ _ _ _).trans (if_neg (Ne.symm apart)))
      intro id name inside known
      rw [below_children found] at inside
      obtain rfl | inside := inside
      · cases found.symm.trans known
        obtain ⟨binding, visible, same⟩ := own' name rfl
        refine ⟨binding, visible, Eq.trans (Arena.type_set_type ?_ _) same⟩
        have grows : state.size ≤ (judged.tree.arena.setType id type).size := work.leaves.size
        rw [Arena.size_setType] at grows
        exact Nat.lt_of_lt_of_le (Nat.lt_of_lt_of_le (Arena.kind_bound found) ready.sound.size) grows
      · obtain ⟨binding, visible, same⟩ := below id name inside known
        refine ⟨binding, visible, Eq.trans (others id ?_) same⟩
        rintro rfl
        obtain ⟨child, member, below⟩ := inside
        rw [← Arena.children_of_kind found] at member
        exact constructed.forest.parent_not_below member below

/-- The names in an expression that was inferred without an error have the types of
what they stand for. -/
theorem names_of_expression (constructed : origin.Constructed limit) {node : NodeId}
    {state final : InferenceState} {type : Option Ty}
    (admitted : origin.arena.Admitted .expression node) (ready : Ready limit origin node state)
    (ran : Ran (expression environment node) state type final) (clean : final.Clean) :
    Named origin state.scopes [node] final := by
  obtain ⟨_, _, got, ran⟩ := ran_bind.mp ran
  cases got
  obtain ⟨kind, found, -⟩ := id admitted
  have bound := Arena.kind_bound found
  have size : origin.arena.size ≤ state.tree.arena.size := ready.sound.size
  exact (names_within constructed _ node state type final (by omega) admitted ready ran).2 clean

end ModuleLang.Inference
