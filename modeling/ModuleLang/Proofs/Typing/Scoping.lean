import ModuleLang.Proofs.Typing.Effects
import ModuleLang.Proofs.Typing.Resolving

/-!
Scopes during inference. The frame that is open when a statement is checked lists
the names that are visible where the statement stands in the completed tree. So
the walk through a body without errors is a course through its scopes: a name
resolves to the variable that its frame has for it, and a definition is new.
-/

namespace ModuleLang

namespace Scopes

/-- The visible names with the nodes that declare them. -/
def binders (scopes : Scopes) : Visible :=
  scopes.top.visible.map fun entry => (entry.1, entry.2.node)

theorem lookup_binders (scopes : Scopes) (name : String) :
    scopes.binders.lookup name = (scopes.lookup name).map Binding.node := by
  unfold binders lookup
  induction scopes.top.visible with
  | nil => rfl
  | cons entry rest ih =>
      obtain ⟨own, binding⟩ := entry
      rw [List.map_cons, List.lookup_cons, List.lookup_cons]
      cases name == own with
      | true => rfl
      | false => exact ih

theorem binders_declare (scopes : Scopes) (name : String) (binding : Binding) :
    (scopes.declare name binding).binders = (name, binding.node) :: scopes.binders := rfl

end Scopes

namespace Inference

variable {limit : Position} {origin tree : SourceTree} {environment : Environment}

section Children

variable {node child : NodeId} {kind : NodeKind NodeId} {state : InferenceState}

/-- A child of a node lies below it. -/
theorem inside_child (known : origin.arena.kind? node = some kind) (slot : child ∈ kind.children) :
    Below origin [node] child := by
  refine below_singleton.mpr (.of_child ?_)
  exact Arena.child_of_kind known slot

/-- The child that is visited first is ready with its parent. -/
theorem Ready.below (ready : Ready limit origin node state)
    (known : origin.arena.kind? node = some kind) (slot : child ∈ kind.children) :
    Ready limit origin child state := by
  refine ⟨ready.sound, ready.untouched.part fun id inside => ?_⟩
  exact below_singleton.mpr
    ((below_singleton.mp (inside_child known slot)).trans (below_singleton.mp inside))

end Children

/-- The binders of the visible names have their types in the completed tree. -/
def Backed (tree : SourceTree) (scopes : Scopes) : Prop :=
  ∀ name binding, scopes.lookup name = some binding →
    tree.arena.type? binding.node = binding.type

theorem backed_declare {scopes : Scopes} {name : String} {binding : Binding}
    (backed : Backed tree scopes) (own : tree.arena.type? binding.node = binding.type) :
    Backed tree (scopes.declare name binding) := by
  intro other found seen
  unfold Scopes.lookup Scopes.declare Frame.declare at seen
  rw [List.lookup_cons] at seen
  split at seen
  · cases seen
    exact own
  · exact backed other found seen

/-- What a statement does to the scopes, as far as the completed tree shows it. -/
structure Stepped (tree : SourceTree) (now : NodeId) (before after : InferenceState) : Prop where
  fresh : after.duplicates = []
  outer : after.scopes.outer = before.scopes.outer
  backed : Backed tree after.scopes
  ruled : ∀ rest last, tree.arena.Scoped after.scopes.binders rest last →
    tree.arena.Scoped before.scopes.binders (now :: rest) last

section Leaves

variable {node now : NodeId} {before after : InferenceState}

/-- A statement that declares nothing. -/
theorem stepped_plain (fresh : before.duplicates = []) (backed : Backed tree before.scopes)
    (same : Undeclared before after)
    (resolves : tree.arena.Resolves before.scopes.binders now) : Stepped tree now before after where
  fresh := same.duplicates.trans fresh
  outer := by rw [same.scopes]
  backed := by
    rw [same.scopes]
    exact backed
  ruled rest last ruled := by
    rw [same.scopes] at ruled
    exact .plain resolves ruled

/-- An assignment that defines a variable. -/
theorem stepped_define {value target : NodeId} {written : Option NodeId} {name : String}
    {type : Option Ty} (fresh : after.duplicates = []) (backed : Backed tree before.scopes)
    (declared : after.scopes = before.scopes.declare name ⟨type, target, .inner⟩)
    (unseen : before.scopes.lookup name = none)
    (found : tree.arena.kind? now = some (.assign .assign target value))
    (definition : tree.arena.kind? target = some (.definition written name))
    (typed : tree.arena.type? target = type)
    (spelled : ∀ id ∈ written, tree.arena.Resolves before.scopes.binders id)
    (resolves : tree.arena.Resolves before.scopes.binders value) :
    Stepped tree now before after where
  fresh := fresh
  outer := by
    rw [declared]
    rfl
  backed := by
    rw [declared]
    exact backed_declare backed typed
  ruled rest last ruled := by
    rw [declared, Scopes.binders_declare] at ruled
    refine .define found definition ?_ spelled resolves ruled
    rw [Scopes.lookup_binders, unseen]
    rfl

/-- The names of an expression resolve among the visible ones. -/
theorem resolves_named {category : Category} {state : InferenceState} {scopes : Scopes}
    (constructed : origin.Constructed limit)
    (traced : ∀ {id kind}, tree.arena.kind? id = some kind → SourceTree.Traced origin tree id kind)
    (grown : origin.arena.size ≤ tree.arena.size) (backed : Backed tree scopes)
    (operand : category.isOperand = true) (admitted : origin.arena.Admitted category node)
    (stands : SourceTree.Stands origin tree category node now)
    (named : Named origin scopes [node] state)
    (types : ∀ id, origin.arena.Reachable node id → tree.arena.type? id = state.type? id) :
    tree.arena.Resolves scopes.binders now := by
  refine SourceTree.resolves_operand constructed traced grown operand admitted stands ?_
  intro id name below known
  obtain ⟨binding, seen, typed⟩ := named id name (below_singleton.mpr below) known
  refine ⟨binding.node, ?_, ?_⟩
  · rw [Scopes.lookup_binders, seen]
    rfl
  · rw [types id below, typed, backed name binding seen]

/-- A statement that holds no others was checked without an error, and the tree
was completed without changing it any more. -/
structure Passage (limit : Position) (origin tree : SourceTree) (node now : NodeId)
    (before after : InferenceState) : Prop where
  constructed : origin.Constructed limit
  traced : ∀ {id kind}, tree.arena.kind? id = some kind → SourceTree.Traced origin tree id kind
  grown : origin.arena.size ≤ tree.arena.size
  ready : Ready limit origin node before
  taken : Taken limit origin (fun _ => False) node before after now
  agrees : ∀ id, Covered origin [node] before after id →
    tree.arena.node? id = after.tree.arena.node? id
  fresh : before.duplicates = []
  backed : Backed tree before.scopes
  clean : after.Clean

namespace Passage

variable {child id : NodeId} {kind : NodeKind NodeId}

theorem type_same (passage : Passage limit origin tree node now before after)
    (inside : Below origin [node] id) : tree.arena.type? id = after.type? id :=
  Arena.type_of_node (passage.agrees id (Or.inl inside))

theorem old (passage : Passage limit origin tree node now before after)
    (known : origin.arena.kind? id = some kind) : id.index < before.size :=
  Nat.lt_of_lt_of_le (Arena.kind_bound known) passage.ready.sound.size

/-- A parsed node is still there. -/
theorem parsed (passage : Passage limit origin tree node now before after)
    (inside : Below origin [node] id) (known : origin.arena.kind? id = some kind) :
    ∃ image, tree.arena.kind? id = some image ∧ after.kind? id = some image ∧
      kind.Alike (SourceTree.Stands origin tree) image := by
  obtain ⟨image, found, alike⟩ := SourceTree.image_of_parsed passage.traced passage.grown known
  have same : tree.arena.kind? id = after.kind? id :=
    Arena.kind_of_node (passage.agrees id (Or.inl inside))
  exact ⟨image, found, same.symm.trans found, alike⟩

/-- A child that was visited, and not changed afterwards. -/
theorem resolves (passage : Passage limit origin tree node now before after)
    {category : Category} {place : NodeId} {state : InferenceState}
    (operand : category.isOperand = true) (inside : Below origin [node] child)
    (admitted : origin.arena.Admitted category child)
    (stands : SourceTree.Stands origin tree category child place)
    (named : Named origin before.scopes [child] state)
    (types : ∀ id, Below origin [child] id → after.type? id = state.type? id) :
    tree.arena.Resolves before.scopes.binders place := by
  refine resolves_named passage.constructed passage.traced passage.grown passage.backed operand
    admitted stands named fun id below => ?_
  rw [passage.type_same (below_singleton.mpr ((below_singleton.mp inside).trans below))]
  exact types id (below_singleton.mpr below)

theorem resolves_type (passage : Passage limit origin tree node now before after) {place : NodeId}
    (inside : Below origin [node] child) (admitted : origin.arena.Admitted .type child)
    (stands : SourceTree.Stands origin tree .type child place) :
    tree.arena.Resolves before.scopes.binders place :=
  passage.resolves rfl inside admitted stands (named_of_type after admitted) fun _ _ => rfl

/-- An expression that stands alone. -/
theorem evaluate (passage : Passage limit origin tree node now before after)
    (admitted : origin.arena.Admitted .expression node)
    (ran : Ran (do
      let _ ← expression environment node
      return node) before now after) : Stepped tree now before after := by
  obtain ⟨_, _, evaluated, ran⟩ := ran_bind.mp ran
  cases ran
  refine stepped_plain passage.fresh passage.backed
    (undeclared_frame.keeps_expression environment _ _ _ _ evaluated) ?_
  exact passage.resolves rfl (below_singleton.mpr .refl) admitted (Or.inl rfl)
    (names_of_expression passage.constructed admitted passage.ready evaluated passage.clean)
    fun _ _ => rfl

theorem jump (passage : Passage limit origin tree node now before after) {keyword : Keyword}
    (known : origin.arena.kind? node = some kind) (isJump : kind = .breakLoop ∨ kind = .continueLoop)
    (ran : Ran (do
      Inference.jump environment node keyword
      return node) before now after) : Stepped tree now before after := by
  obtain ⟨rfl, rfl, -⟩ := ran_jump ran passage.clean
  refine stepped_plain passage.fresh passage.backed (undeclared_frame.refl _) ?_
  obtain ⟨image, found, -, alike⟩ := passage.parsed (below_singleton.mpr .refl) known
  obtain rfl | rfl := isJump <;> cases alike <;>
    exact Arena.resolves_of_children found rfl nofun nofun

end Passage

/-- What an expression leaves behind that was inferred without an error. -/
structure Evaluated (origin : SourceTree) (child : NodeId) (before after : InferenceState) :
    Prop where
  same : Undeclared before after
  leaves : Leaves (Below origin [child]) before after
  named : after.Clean → Named origin before.scopes [child] after

theorem evaluated_of_ran {state final : InferenceState} {child : NodeId} {type : Option Ty}
    (constructed : origin.Constructed limit) (admitted : origin.arena.Admitted .expression child)
    (ready : Ready limit origin child state)
    (ran : Ran (expression environment child) state type final) :
    Evaluated origin child state final := by
  obtain ⟨work, -⟩ := (yields_expression (fun _ => False) constructed admitted ready.sound
    ready.untouched).of_ran ran
  exact ⟨undeclared_frame.keeps_expression environment _ _ _ _ ran, work.leaves,
    names_of_expression constructed admitted ready ran⟩

namespace Passage

variable {child id : NodeId} {kind : NodeKind NodeId}

theorem returnFrom (passage : Passage limit origin tree node now before after)
    {value : Option NodeId} (known : origin.arena.kind? node = some (.returnFrom value))
    (ran : Ran (do
      Inference.returnFrom environment node value
      return node) before now after) : Stepped tree now before after := by
  obtain ⟨_, _, returned, ran⟩ := ran_bind.mp ran
  cases ran
  have same := undeclared_frame.keeps_return environment _ _ _ _ _ returned
  refine stepped_plain passage.fresh passage.backed same ?_
  obtain ⟨image, found, -, alike⟩ := passage.parsed (below_singleton.mpr .refl) known
  cases alike with
  | returnFrom only =>
      refine Arena.resolves_of_children found rfl nofun fun place slot => ?_
      cases only with
      | none => cases slot
      | @some child _ stands =>
          rw [NodeKind.children, Option.mem_toList] at slot
          cases slot
          obtain ⟨type, middle, inferred, mild⟩ := ran_return returned child rfl
          have member : child ∈ (NodeKind.returnFrom (some child)).children := by
            simp [NodeKind.children]
          have admitted := passage.constructed.admitted known (.expression, child)
            (by simp [NodeKind.slots])
          have evaluated := evaluated_of_ran passage.constructed admitted
            (passage.ready.below known member) inferred
          refine passage.resolves rfl (inside_child known member) admitted stands
            (evaluated.named (mild.clean passage.clean)) fun id inside => mild.types id ?_
          have bound := below_bounded passage.constructed
            (by simpa using Arena.kind_bound admitted.choose_spec.1) inside
          exact Nat.lt_of_lt_of_le bound
            (Nat.le_trans passage.ready.sound.size evaluated.leaves.size)

/-- The written type of a definition. -/
theorem definition_parsed (passage : Passage limit origin tree node now before after)
    {definition written : NodeId} {name : String} (inside : Below origin [node] definition)
    (known : origin.arena.kind? definition = some (.definition (some written) name)) :
    tree.arena.kind? definition = some (.definition (some written) name) ∧
      tree.arena.Resolves before.scopes.binders written := by
  obtain ⟨image, found, -, alike⟩ := passage.parsed inside known
  cases alike with
  | definition only =>
      cases only with
      | some stands =>
          cases SourceTree.same_of_stands_type stands
          refine ⟨found, passage.resolves_type ?_ (passage.constructed.admitted known
            (.type, written) (by simp [NodeKind.slots])) (Or.inl rfl)⟩
          refine below_singleton.mpr (Relation.ReflTransGen.tail (below_singleton.mp inside) ?_)
          rw [Arena.children_of_kind known]
          simp [NodeKind.children]

/-- The value that is assigned to a definition without one. -/
theorem default_resolves (passage : Passage limit origin tree node now before after)
    {definition value : NodeId} {visible : Visible} (new : origin.arena.size ≤ now.index)
    (found : tree.arena.kind? now = some (.assign .assign definition value)) :
    tree.arena.Resolves visible value := by
  cases passage.traced found with
  | parsed was _ _ => exact absurd (Arena.kind_bound was) (Nat.not_lt.mpr new)
  | added _ form =>
      cases form with
      | @assign _ _ kind _ _ later held isDefault =>
          cases kind with
          | literal => exact Arena.resolves_of_children held rfl nofun nofun
          | construct written arguments =>
              cases passage.traced held with
              | parsed was _ _ => exact absurd (Arena.kind_bound was) (Nat.not_lt.mpr later)
              | added _ form =>
                  cases form with
                  | construct spells =>
                      refine Arena.resolves_of_children held rfl nofun fun child slot => ?_
                      rw [NodeKind.children, List.mem_singleton] at slot
                      subst slot
                      exact SourceTree.resolves_written spells.1
          | _ => cases isDefault

theorem bareDefinition (passage : Passage limit origin tree node now before after)
    {written : NodeId} {name : String}
    (known : origin.arena.kind? node = some (.definition (some written) name))
    (ran : Ran (Inference.bareDefinition environment node (some written) name) before now after) :
    Stepped tree now before after := by
  obtain ⟨type, _, resolving, ran⟩ := ran_bind.mp ran
  obtain ⟨_, _, storing, ran⟩ := ran_bind.mp ran
  obtain ⟨_, defined, defining, ran⟩ := ran_bind.mp ran
  have whole : ∀ clean : defined.Clean, Declared written node name type before defined :=
    declared_of_ran resolving storing defining passage.fresh
  cases type with
  | none =>
      cases ran
      cases (whole passage.clean).known
  | some type =>
      obtain ⟨value, valued, defaulted, adding⟩ := ran_bind.mp ran
      have mild := mild_chain.trans (keeps_mild_add_default _ _ _ _ _ defaulted)
        (keeps_mild_add _ _ _ _ _ adding)
      have declared := whole (mild.clean passage.clean)
      have added := ran_add adding
      have self : Below origin [node] node := below_singleton.mpr .refl
      have bound := passage.old known
      have new : origin.arena.size ≤ now.index := by
        have first := passage.ready.sound.size
        have second := declared.size
        have third := (keeps_mild_add_default _ _ _ _ _ defaulted).size
        rw [added.new]
        change origin.arena.size ≤ valued.size
        omega
      have found : tree.arena.kind? now = some (.assign .assign node value) :=
        (Arena.kind_of_node (passage.agrees now passage.taken.covered)).trans added.found
      obtain ⟨definition, spelled⟩ := passage.definition_parsed self known
      refine stepped_define (mild.duplicates.trans declared.duplicates) passage.backed
        (mild.scopes.trans declared.scopes) declared.unseen found definition ?_ ?_
        (passage.default_resolves new found)
      · rw [passage.type_same self, mild.types node (by rw [declared.size]; exact bound)]
        exact declared.typed bound
      · rintro id ⟨⟩
        exact spelled

/-- An assignment whose value was inferred, and whose target is still untouched. -/
structure Assigning (limit : Position) (origin tree : SourceTree) (node : NodeId)
    (operator : AssignOperator) (target value : NodeId) (before valued after : InferenceState) :
    Prop where
  passage : Passage limit origin tree node node before after
  known : origin.arena.kind? node = some (.assign operator target value)
  visits : Visits limit origin (fun _ => False) node (.assign operator target value) [value]
    [target] before valued
  same : Undeclared before valued
  valued : (∀ id, Below origin [value] id → after.type? id = valued.type? id) → valued.Clean →
    ∀ place, SourceTree.Stands origin tree .expression value place →
      tree.arena.Resolves before.scopes.binders place

theorem assigning_of_ran (passage : Passage limit origin tree node node before after)
    {operator : AssignOperator} {target value : NodeId} {type : Option Ty} {valued : InferenceState}
    (known : origin.arena.kind? node = some (.assign operator target value))
    (ran : Ran (assignedType environment value) before type valued) :
    Assigning limit origin tree node operator target value before valued after := by
  have slot : (Category.expression, value) ∈ (NodeKind.assign operator target value).slots := by
    simp [NodeKind.slots]
  have visits := visits_of_assigned_type passage.constructed known passage.ready ran
  obtain ⟨_, middle, inferred, mild⟩ := ran_assigned_type ran
  have admitted := passage.constructed.admitted known _ slot
  have member := NodeKind.slot_is_child slot
  have evaluated := evaluated_of_ran passage.constructed admitted
    (passage.ready.below known member) inferred
  refine ⟨passage, known, visits, undeclared_frame.trans evaluated.same mild.toUndeclared,
    fun types clean place stands => ?_⟩
  refine passage.resolves rfl (inside_child known member) admitted stands
    (evaluated.named (mild.clean clean)) fun id inside => (types id inside).trans (mild.types id ?_)
  have bound := below_bounded passage.constructed
    (by simpa using Arena.kind_bound admitted.choose_spec.1) inside
  exact Nat.lt_of_lt_of_le bound (Nat.le_trans passage.ready.sound.size evaluated.leaves.size)

end Passage

namespace Passage.Assigning

variable {operator : AssignOperator} {target value : NodeId} {valued : InferenceState}
  {kind : NodeKind NodeId}

theorem target_kind
    (assigning : Assigning limit origin tree node operator target value before valued after) :
    valued.kind? target = origin.arena.kind? target :=
  assigning.visits.next_ready.kind

theorem target_inside
    (assigning : Assigning limit origin tree node operator target value before valued after) :
    Below origin [node] target :=
  inside_child assigning.known (by simp [NodeKind.children])

theorem target_ready
    (assigning : Assigning limit origin tree node operator target value before valued after) :
    Ready limit origin target valued :=
  assigning.visits.next_ready

/-- What was below the value is not changed by work on the target. -/
theorem value_old
    (assigning : Assigning limit origin tree node operator target value before valued after)
    {id : NodeId} (inside : Below origin [value] id) : id.index < valued.size ∧
      ¬ Below origin [target] id := by
  have visits := assigning.visits
  refine ⟨?_, visits.next_apart inside⟩
  exact Nat.lt_of_lt_of_le (below_bounded visits.constructed (fun child member =>
    visits.child_bound (List.mem_append_left _ member)) inside) visits.sound.size

theorem apart
    (assigning : Assigning limit origin tree node operator target value before valued after) :
    target ≠ value := by
  rintro rfl
  exact (assigning.value_old (below_singleton.mpr .refl)).2 (below_singleton.mpr .refl)

/-- The target and the value of the assignment in the completed tree. -/
theorem parts
    (assigning : Assigning limit origin tree node operator target value before valued after) :
    ∃ left right, tree.arena.kind? node = some (.assign operator left right) ∧
      after.kind? node = some (.assign operator left right) ∧
      SourceTree.Stands origin tree operator.side target left ∧
      SourceTree.Stands origin tree .expression value right := by
  obtain ⟨image, found, held, alike⟩ :=
    assigning.passage.parsed (below_singleton.mpr .refl) assigning.known
  cases alike with
  | assign first second => exact ⟨_, _, found, held, first, second⟩

/-- An assignment to something that is there. -/
theorem plain
    (assigning : Assigning limit origin tree node operator target value before valued after)
    (same : Undeclared valued after)
    (types : ∀ id, Below origin [value] id → after.type? id = valued.type? id)
    (stays : ∀ left right, after.kind? node = some (.assign operator left right) →
      SourceTree.Stands origin tree operator.side target left → left = target)
    (resolves : tree.arena.Resolves before.scopes.binders target) :
    Stepped tree node before after := by
  have passage := assigning.passage
  refine stepped_plain passage.fresh passage.backed (undeclared_frame.trans assigning.same same) ?_
  obtain ⟨left, right, found, held, first, second⟩ := assigning.parts
  cases stays left right held first
  refine Arena.resolves_of_children found rfl nofun fun child slot => ?_
  rw [NodeKind.children, List.mem_cons, List.mem_singleton] at slot
  obtain rfl | rfl := slot
  · exact resolves
  · exact assigning.valued types (same.clean passage.clean) _ second

/-- `type name := value`. -/
theorem definition {written : NodeId} {name : String} {declared valueType : Option Ty}
    {defined : InferenceState} {result : Unit}
    (assigning : Assigning limit origin tree node operator target value before valued after)
    (was : origin.arena.kind? target = some (.definition (some written) name))
    (made : defined.Clean → Declared written target name declared valued defined)
    (ran : Ran (store environment node operator value declared valueType) defined result after) :
    Stepped tree node before after := by
  have passage := assigning.passage
  obtain ⟨mild, -⟩ := ran_store ran
  have made := made (mild.clean passage.clean)
  obtain ⟨left, right, found, -, first, second⟩ := assigning.parts
  obtain rfl := SourceTree.same_of_stands_side first was nofun
  have plain : operator = .assign := by
    obtain ⟨kind, same, admits⟩ := passage.constructed.admitted assigning.known
      (operator.side, left) (by simp [NodeKind.slots])
    cases was.symm.trans same
    cases operator with
    | assign => rfl
    | _ => cases admits
  subst plain
  obtain ⟨kept, spelled⟩ := passage.definition_parsed assigning.target_inside was
  have old : ∀ {id}, id.index < valued.size → after.type? id = defined.type? id :=
    fun bound => mild.types _ (by rw [made.size]; exact bound)
  have bound : left.index < valued.size :=
    Nat.lt_of_lt_of_le (Arena.kind_bound was) assigning.visits.sound.size
  have writtenBelow : Below origin [left] written := inside_child was (by simp [NodeKind.children])
  refine stepped_define (mild.duplicates.trans made.duplicates) passage.backed
    (mild.scopes.trans (made.scopes.trans (by rw [assigning.same.scopes])))
    (by rw [← assigning.same.scopes]; exact made.unseen) found kept ?_ ?_ ?_
  · rw [passage.type_same assigning.target_inside, old bound]
    exact made.typed bound
  · rintro id ⟨⟩
    exact spelled
  · refine assigning.valued (fun id inside => ?_) ?_ _ second
    · obtain ⟨bound, outside⟩ := assigning.value_old inside
      refine (old bound).trans (made.others id ?_ ?_)
      · rintro rfl
        exact outside writtenBelow
      · rintro rfl
        exact outside (below_singleton.mpr .refl)
    · exact clean_of_grown made.grows (mild.clean passage.clean)

/-- An assignment to a name that is visible. -/
theorem visible {name : String} {binding : Binding} {valueType : Option Ty}
    {named : InferenceState} {stored result : Unit}
    (assigning : Assigning limit origin tree node operator target value before valued after)
    (was : origin.arena.kind? target = some (.member name))
    (seen : valued.scopes.lookup name = some binding)
    (storing : Ran (setType target binding.type) valued stored named)
    (ran : Ran (store environment node operator value binding.type valueType) named result after) :
    Stepped tree node before after := by
  have passage := assigning.passage
  obtain ⟨stores, typed⟩ := ran_set_type storing
  obtain ⟨mild, keeps⟩ := ran_store ran
  have bound : target.index < valued.size :=
    Nat.lt_of_lt_of_le (Arena.kind_bound was) assigning.visits.sound.size
  have old : ∀ {id}, id.index < valued.size → after.type? id = named.type? id :=
    fun bound => mild.types _ (by rw [stores.size]; exact bound)
  rw [assigning.same.scopes] at seen
  refine assigning.plain (undeclared_frame.trans stores.toUndeclared mild.toUndeclared) ?_ ?_ ?_
  · intro id inside
    obtain ⟨bound, outside⟩ := assigning.value_old inside
    refine (old bound).trans (stores.others id ?_)
    rintro rfl
    exact outside (below_singleton.mpr .refl)
  · intro left right held _
    have start : named.kind? node = some (.assign operator target value) :=
      (stores.kinds node).trans assigning.visits.node_same.1
    obtain ⟨now, found⟩ := keeps start assigning.apart
    cases held.symm.trans found
    rfl
  · obtain ⟨image, found, -, alike⟩ := passage.parsed assigning.target_inside was
    cases alike
    have named : before.scopes.binders.lookup name = some binding.node := by
      rw [Scopes.lookup_binders, seen]
      rfl
    refine Arena.resolves_member found named ?_
    rw [passage.type_same assigning.target_inside, old bound, typed bound]
    exact (passage.backed name binding seen).symm

/-- The first assignment to a name. -/
theorem implicit {definition : NodeId} {name : String} {type : Option Ty}
    (assigning : Assigning limit origin tree node operator target value before valued after)
    (plain : operator = .assign) (unseen : valued.scopes.lookup name = none)
    (made : Defined node value definition name type valued after) :
    Stepped tree node before after := by
  subst plain
  have passage := assigning.passage
  obtain ⟨left, right, found, held, -, second⟩ := assigning.parts
  obtain ⟨written, defines⟩ := made.defines
  cases held.symm.trans made.assigned
  have later : origin.arena.size ≤ definition.index :=
    Nat.le_trans assigning.visits.sound.size made.new
  have same : tree.arena.node? definition = after.tree.arena.node? definition :=
    passage.agrees definition (Or.inr ⟨Nat.le_trans assigning.visits.work.leaves.size made.new,
      Arena.kind_bound defines⟩)
  have kept := (Arena.kind_of_node same).trans defines
  refine stepped_define (made.duplicates.trans (assigning.same.duplicates.trans passage.fresh))
    passage.backed (made.scopes.trans (by rw [assigning.same.scopes]))
    (by rw [← assigning.same.scopes]; exact unseen) found kept
    ((Arena.type_of_node same).trans made.typed) ?_ ?_
  · intro id member
    cases passage.traced kept with
    | parsed was _ _ => exact absurd (Arena.kind_bound was) (Nat.not_lt.mpr later)
    | added _ form =>
        cases form with
        | definition spells =>
            obtain ⟨_, spelled⟩ := spells id member
            exact SourceTree.resolves_written spelled.1
  · exact assigning.valued (fun id inside => made.types id (assigning.value_old inside).1)
      (clean_of_grown made.grows passage.clean) _ second

/-- An assignment to a part of something. -/
theorem access {type valueType : Option Ty} {middle : InferenceState} {result : Unit}
    (assigning : Assigning limit origin tree node operator target value before valued after)
    (was : origin.arena.kind? target = some kind) (other : ∀ name, kind ≠ .member name)
    (expressed : kind.isExpression = true)
    (inferred : Ran (expression environment target) valued type middle)
    (ran : Ran (store environment node operator value type valueType) middle result after) :
    Stepped tree node before after := by
  have passage := assigning.passage
  obtain ⟨mild, -⟩ := ran_store ran
  have admitted : origin.arena.Admitted .expression target := ⟨kind, was, expressed⟩
  have evaluated := evaluated_of_ran passage.constructed admitted assigning.target_ready inferred
  have old : ∀ {id}, id.index < valued.size → after.type? id = middle.type? id :=
    fun bound => mild.types _ (Nat.lt_of_lt_of_le bound evaluated.leaves.size)
  refine assigning.plain (undeclared_frame.trans evaluated.same mild.toUndeclared) ?_ ?_ ?_
  · intro id inside
    obtain ⟨bound, outside⟩ := assigning.value_old inside
    exact (old bound).trans (Arena.type_of_node (evaluated.leaves.node id bound outside))
  · exact fun left _ _ stands => SourceTree.same_of_stands_side stands was other
  · refine passage.resolves rfl assigning.target_inside admitted (Or.inl rfl)
      (assigning.same.scopes ▸ evaluated.named (mild.clean passage.clean)) fun id inside => old ?_
    exact Nat.lt_of_lt_of_le (below_bounded passage.constructed
      (by simpa using Arena.kind_bound was) inside) assigning.visits.sound.size

/-- A name on the left: it is visible, or it becomes a definition. -/
theorem name {name : String} {valueType : Option Ty} {result : Unit}
    (assigning : Assigning limit origin tree node operator target value before valued after)
    (was : origin.arena.kind? target = some (.member name))
    (ran : Ran (nameAssignment environment node operator target name value valueType) valued result
      after) : Stepped tree node before after := by
  have clean := assigning.passage.clean
  obtain ⟨_, _, got, ran⟩ := ran_bind.mp ran
  cases got
  split at ran
  · rename_i binding seen
    obtain ⟨_, _, storing, ran⟩ := ran_bind.mp ran
    exact assigning.visible was seen storing ran
  · rename_i unseen
    split at ran
    · exact absurd clean (not_clean_of_report ran rfl)
    · rename_i plain
      have plain : operator = .assign := not_not.mp plain
      split at ran
      · -- The name was declared in a nested body before, which is reported.
        obtain ⟨_, repeated, reported, ran⟩ := ran_bind.mp ran
        obtain ⟨_, _, stored, ran⟩ := ran_bind.mp ran
        cases ran
        have fresh : valued.duplicates = [] :=
          assigning.same.duplicates.trans assigning.passage.fresh
        exact absurd ((ran_set_type stored).1.clean clean) (not_clean_of_duplicate reported fresh)
      · have known : valued.kind? node = some (.assign .assign target value) :=
          plain ▸ assigning.visits.node_same.1
        obtain ⟨definition, type, made⟩ := defined_of_ran ran known assigning.apart
        exact assigning.implicit plain unseen made

end Passage.Assigning

namespace Passage

theorem assignment (passage : Passage limit origin tree node now before after)
    {operator : AssignOperator} {target value : NodeId}
    (known : origin.arena.kind? node = some (.assign operator target value))
    (ran : Ran (do
      Inference.assignment environment node operator target value
      return node) before now after) : Stepped tree now before after := by
  obtain ⟨_, _, assigned, ran⟩ := ran_bind.mp ran
  cases ran
  obtain ⟨valueType, valued, first, ran⟩ := ran_bind.mp assigned
  have assigning := assigning_of_ran passage known first
  obtain ⟨_, _, got, ran⟩ := ran_bind.mp ran
  cases got
  obtain ⟨kind, was, admits⟩ := passage.constructed.admitted known (operator.side, target)
    (by simp [NodeKind.slots])
  rw [show valued.tree.arena.kind? target = some kind from assigning.target_kind.trans was] at ran
  have isTarget := AssignOperator.is_target_of_side admits
  cases kind with
  | definition written name =>
      cases written with
      | none => cases isTarget
      | some written =>
          obtain ⟨declared, _, resolving, ran⟩ := ran_bind.mp ran
          obtain ⟨_, _, storing, ran⟩ := ran_bind.mp ran
          obtain ⟨_, _, defining, ran⟩ := ran_bind.mp ran
          exact assigning.definition was (declared_of_ran resolving storing defining
            (assigning.same.duplicates.trans passage.fresh)) ran
  | member name => exact assigning.name was ran
  | memberAccess owner name =>
      obtain ⟨_, _, inferred, ran⟩ := ran_bind.mp ran
      exact assigning.access was (by simp) rfl inferred ran
  | indexAccess owner index =>
      obtain ⟨_, _, inferred, ran⟩ := ran_bind.mp ran
      exact assigning.access was (by simp) rfl inferred ran
  | _ => cases isTarget

/-- One case for each kind of statement that holds no others. -/
theorem stepped (passage : Passage limit origin tree node now before after)
    {kind : NodeKind NodeId} {check : NodeId → Inference NodeId}
    (known : origin.arena.kind? node = some kind) (plain : kind.isNested = false)
    (admits : kind.isStatement = true)
    (ran : Ran (anyStatement environment check node) before now after) :
    Stepped tree now before after := by
  obtain ⟨_, _, got, ran⟩ := ran_bind.mp ran
  cases got
  rw [show before.tree.arena.kind? node = some kind from passage.ready.kind.trans known] at ran
  cases kind with
  | definition written name =>
      cases written with
      | none => cases admits
      | some written => exact passage.bareDefinition known ran
  | assign operator target value => exact passage.assignment known ran
  | returnFrom value => exact passage.returnFrom known ran
  | breakLoop => exact passage.jump known (Or.inl rfl) ran
  | continueLoop => exact passage.jump known (Or.inr rfl) ran
  | call | construct | unary => exact passage.evaluate ⟨_, known, rfl⟩ ran
  | body | condition | loop => cases plain
  | _ => cases admits

end Passage

end Leaves

end Inference

end ModuleLang
