import ModuleLang.Proofs.Tree.Forest
import ModuleLang.Proofs.Tree.Slots

/-!
The tree that an arena holds below a node. It is computed from the leaves up, and
a computation that succeeds with whatever depth succeeds with the size of the
arena: as long as it did not, there was a path of one more node.
-/

namespace ModuleLang

/-- A whole tree, apart from the arena that it may be in. -/
inductive SyntaxTree
  | node (kind : NodeKind SyntaxTree)

instance : Inhabited SyntaxTree := ⟨.node .breakLoop⟩

namespace NodeKind

variable {slot image : Type}

theorem map_unsourced (change : slot → image) (kind : NodeKind slot) :
    (kind.map change).unsourced = kind.unsourced.map change := by
  cases kind <;> rfl

section Collecting

variable {visit : slot → Option image}

theorem list_of_some {slots : List slot} {value : slot → image}
    (each : ∀ child ∈ slots, visit child = some (value child)) :
    slots.mapM visit = some (slots.map value) := by
  induction slots with
  | nil => rfl
  | cons first rest ih =>
      rw [List.mapM_cons, each first List.mem_cons_self,
        ih fun child member => each child (List.mem_cons_of_mem _ member)]
      rfl

theorem option_of_some {held : Option slot} {value : slot → image}
    (each : ∀ child ∈ held.toList, visit child = some (value child)) :
    held.mapM visit = some (held.map value) := by
  cases held with
  | none => rfl
  | some child =>
      rw [Option.mapM_some, each child (by simp)]
      rfl

/-- Values for all slots, if there is one for each of them. -/
theorem mapM_of_some {kind : NodeKind slot} {value : slot → image}
    (each : ∀ child ∈ kind.children, visit child = some (value child)) :
    kind.mapM visit = some (kind.map value) := by
  cases kind with
  | root modules imports functions =>
      simp only [children, List.mem_append] at each
      rw [mapM, list_of_some fun child member => each child (Or.inl (Or.inl member)),
        list_of_some fun child member => each child (Or.inl (Or.inr member)),
        list_of_some fun child member => each child (Or.inr member)]
      rfl
  | function result name parameters block =>
      simp only [children, List.mem_append, List.mem_singleton] at each
      rw [mapM, option_of_some fun child member => each child (Or.inl (Or.inl member)),
        list_of_some fun child member => each child (Or.inl (Or.inr member)),
        each block (Or.inr rfl)]
      rfl
  | condition predicate thenBody elseBody =>
      simp only [children, List.mem_cons] at each
      rw [mapM, each predicate (Or.inl rfl), each thenBody (Or.inr (Or.inl rfl)),
        option_of_some fun child member => each child (Or.inr (Or.inr member))]
      rfl
  | construct type arguments =>
      simp only [children, List.mem_cons] at each
      rw [mapM, each type (Or.inl rfl), list_of_some fun child member => each child (Or.inr member)]
      rfl
  | body statements =>
      have all : ∀ child ∈ statements, visit child = some (value child) := each
      rw [mapM, list_of_some all]
      rfl
  | call name arguments =>
      have all : ∀ child ∈ arguments, visit child = some (value child) := each
      rw [mapM, list_of_some all]
      rfl
  | returnFrom value =>
      rw [mapM, option_of_some each]
      rfl
  | definition type name =>
      rw [mapM, option_of_some each]
      rfl
  | _ =>
      simp only [children, List.mem_cons, List.not_mem_nil, or_false, forall_eq_or_imp,
        forall_eq] at each
      simp [mapM, map, each]

theorem some_of_list {slots : List slot} {values : List image} (found : slots.mapM visit = some values) :
    ∀ child ∈ slots, (visit child).isSome := by
  induction slots generalizing values with
  | nil => exact nofun
  | cons first rest ih =>
      rw [List.mapM_cons] at found
      obtain ⟨value, known, found⟩ := Option.bind_eq_some_iff.mp found
      obtain ⟨others, rest', -⟩ := Option.bind_eq_some_iff.mp found
      intro child member
      obtain rfl | member := List.mem_cons.mp member
      · rw [known]
        rfl
      · exact ih rest' child member

theorem some_of_option {held : Option slot} {value : Option image}
    (found : held.mapM visit = some value) : ∀ child ∈ held.toList, (visit child).isSome := by
  cases held with
  | none => exact nofun
  | some child =>
      rw [Option.mapM_some] at found
      obtain ⟨known, same, -⟩ := Option.map_eq_some_iff.mp found
      intro other member
      simp only [Option.toList_some, List.mem_singleton] at member
      rw [member, same]
      rfl

/-- There are values for all slots only if there is one for each of them. -/
theorem some_of_mapM {kind : NodeKind slot} {values : NodeKind image}
    (found : kind.mapM visit = some values) : ∀ child ∈ kind.children, (visit child).isSome := by
  cases kind with
  | root modules imports functions =>
      obtain ⟨first, found₁, found⟩ := Option.bind_eq_some_iff.mp found
      obtain ⟨second, found₂, found⟩ := Option.bind_eq_some_iff.mp found
      obtain ⟨third, found₃, -⟩ := Option.bind_eq_some_iff.mp found
      simp only [children, List.mem_append]
      rintro child ((member | member) | member)
      · exact some_of_list found₁ child member
      · exact some_of_list found₂ child member
      · exact some_of_list found₃ child member
  | function result name parameters block =>
      obtain ⟨first, found₁, found⟩ := Option.bind_eq_some_iff.mp found
      obtain ⟨second, found₂, found⟩ := Option.bind_eq_some_iff.mp found
      obtain ⟨third, found₃, -⟩ := Option.bind_eq_some_iff.mp found
      simp only [children, List.mem_append, List.mem_singleton]
      rintro child ((member | member) | rfl)
      · exact some_of_option found₁ child member
      · exact some_of_list found₂ child member
      · exact Option.isSome_of_eq_some found₃
  | condition predicate thenBody elseBody =>
      obtain ⟨first, found₁, found⟩ := Option.bind_eq_some_iff.mp found
      obtain ⟨second, found₂, found⟩ := Option.bind_eq_some_iff.mp found
      obtain ⟨third, found₃, -⟩ := Option.bind_eq_some_iff.mp found
      simp only [children, List.mem_cons]
      rintro child (rfl | rfl | member)
      · exact Option.isSome_of_eq_some found₁
      · exact Option.isSome_of_eq_some found₂
      · exact some_of_option found₃ child member
  | construct type arguments =>
      obtain ⟨first, found₁, found⟩ := Option.bind_eq_some_iff.mp found
      obtain ⟨second, found₂, -⟩ := Option.bind_eq_some_iff.mp found
      simp only [children, List.mem_cons]
      rintro child (rfl | member)
      · exact Option.isSome_of_eq_some found₁
      · exact some_of_list found₂ child member
  | body statements =>
      obtain ⟨first, found₁, -⟩ := Option.bind_eq_some_iff.mp found
      exact some_of_list found₁
  | call name arguments =>
      obtain ⟨first, found₁, -⟩ := Option.bind_eq_some_iff.mp found
      exact some_of_list found₁
  | returnFrom value =>
      obtain ⟨first, found₁, -⟩ := Option.bind_eq_some_iff.mp found
      exact some_of_option found₁
  | definition type name =>
      obtain ⟨first, found₁, -⟩ := Option.bind_eq_some_iff.mp found
      exact some_of_option found₁
  | parameter | memberAccess | unary =>
      obtain ⟨first, found₁, -⟩ := Option.bind_eq_some_iff.mp found
      simp [children, found₁]
  | loop | newArray | cast | indexAccess | assign | binary =>
      obtain ⟨first, found₁, found⟩ := Option.bind_eq_some_iff.mp found
      obtain ⟨second, found₂, -⟩ := Option.bind_eq_some_iff.mp found
      simp [children, found₁, found₂]
  | _ => exact List.forall_mem_nil _

end Collecting

/-- A kind whose slots hold the values of others, apart from what a cast has noted. -/
theorem Alike.eq_map {kind : NodeKind slot} {held : NodeKind image} {value : slot → image}
    (alike : Alike (fun _ child result => result = value child) kind held) :
    held.unsourced = kind.unsourced.map value := by
  have lists : ∀ {children : List slot} {results : List image},
      List.Forall₂ (fun child result => result = value child) children results →
      results = children.map value := by
    intro children results matched
    induction matched with
    | nil => rfl
    | cons same _ ih => rw [List.map_cons, same, ih]
  have options : ∀ {child : Option slot} {result : Option image},
      Option.Rel (fun child result => result = value child) child result →
      result = child.map value := by
    intro child result matched
    cases matched with
    | none => rfl
    | some same => rw [Option.map_some, same]
  cases alike with
  | root first second third => simp only [unsourced, map, lists first, lists second, lists third]
  | function first second third => simp only [unsourced, map, options first, lists second, third]
  | condition first second third => simp only [unsourced, map, first, second, options third]
  | construct first rest => simp only [unsourced, map, first, lists rest]
  | cast first second => simp only [unsourced, map, first, second]
  | body all => simp only [unsourced, map, lists all]
  | call all => simp only [unsourced, map, lists all]
  | returnFrom only => simp only [unsourced, map, options only]
  | definition only => simp only [unsourced, map, options only]
  | parameter only => simp only [unsourced, map, only]
  | memberAccess only => simp only [unsourced, map, only]
  | unary only => simp only [unsourced, map, only]
  | loop first second => simp only [unsourced, map, first, second]
  | newArray first second => simp only [unsourced, map, first, second]
  | indexAccess first second => simp only [unsourced, map, first, second]
  | assign first second => simp only [unsourced, map, first, second]
  | binary first second => simp only [unsourced, map, first, second]
  | _ => rfl

end NodeKind

namespace Arena

variable {value : Type} {step : NodeId → NodeKind value → Option Ty → value} {arena : Arena}

/-- The value of a node from those of its children. -/
theorem fold_within_node {depth : Nat} {id : NodeId} {kind : NodeKind NodeId}
    {values : NodeId → value} (found : arena.kind? id = some kind)
    (each : ∀ child ∈ kind.children, arena.foldWithin step depth child = some (values child)) :
    arena.foldWithin step (depth + 1) id = some (step id (kind.map values) (arena.type? id)) := by
  obtain ⟨node, known, rfl⟩ := Option.map_eq_some_iff.mp found
  rw [foldWithin, known, Option.bind_eq_bind, Option.bind_some, NodeKind.mapM_of_some each]
  simp [type?, known]

/-- A node has a value only if its children have. -/
theorem fold_within_children {depth : Nat} {id : NodeId}
    (some' : (arena.foldWithin step (depth + 1) id).isSome) :
    ∃ kind, arena.kind? id = some kind ∧
      ∀ child ∈ kind.children, (arena.foldWithin step depth child).isSome := by
  obtain ⟨result, found⟩ := Option.isSome_iff_exists.mp some'
  rw [foldWithin] at found
  obtain ⟨node, known, found⟩ := Option.bind_eq_some_iff.mp found
  obtain ⟨values, collected, -⟩ := Option.bind_eq_some_iff.mp found
  exact ⟨node.kind, by simp [kind?, known], NodeKind.some_of_mapM collected⟩

/-- More depth changes no value. -/
theorem fold_within_deeper {depth : Nat} {id : NodeId} {result : value}
    (found : arena.foldWithin step depth id = some result) :
    arena.foldWithin step (depth + 1) id = some result := by
  induction depth generalizing id result with
  | zero => cases found
  | succ depth ih =>
      obtain ⟨kind, known, each⟩ := fold_within_children (Option.isSome_of_eq_some found)
      have some' : ∀ child, child ∈ kind.children → ∃ result,
          arena.foldWithin step depth child = some result := fun child inside =>
        Option.isSome_iff_exists.mp (each child inside)
      have : Nonempty value := ⟨result⟩
      choose! values held using some'
      rw [fold_within_node known held] at found
      rw [fold_within_node known fun child inside => ih (held child inside)]
      exact found

theorem fold_within_mono {depth more : Nat} (le : depth ≤ more) {id : NodeId} {result : value}
    (found : arena.foldWithin step depth id = some result) :
    arena.foldWithin step more id = some result := by
  induction le with
  | refl => exact found
  | step _ ih => exact fold_within_deeper ih

/-- A node that has a value with one more depth only heads a path that is as long as
this depth. No node is on it twice, for a node further down has a value with less. -/
theorem path_of_fold_within {depth : Nat} {id : NodeId}
    (none' : arena.foldWithin step depth id = none)
    (some' : (arena.foldWithin step (depth + 1) id).isSome) :
    ∃ path : List NodeId, path.length = depth + 1 ∧ path.Nodup ∧
      ∀ node ∈ path, (arena.foldWithin step (depth + 1) node).isSome := by
  induction depth generalizing id with
  | zero => exact ⟨[id], rfl, List.nodup_singleton _, by simpa using some'⟩
  | succ depth ih =>
      obtain ⟨kind, known, each⟩ := fold_within_children some'
      obtain ⟨child, inside, absent⟩ : ∃ child ∈ kind.children,
          arena.foldWithin step depth child = none := by
        by_contra all
        push Not at all
        have held : ∀ child, child ∈ kind.children → ∃ result,
            arena.foldWithin step depth child = some result := fun child inside =>
          Option.ne_none_iff_exists'.mp (all child inside)
        have : Nonempty value := ⟨Option.get _ some'⟩
        choose! values held using held
        rw [fold_within_node known held] at none'
        cases none'
      obtain ⟨path, length, distinct, have'⟩ := ih absent (each child inside)
      refine ⟨id :: path, by rw [List.length_cons, length], ?_, ?_⟩
      · refine List.nodup_cons.mpr ⟨fun again => ?_, distinct⟩
        have held := have' id again
        rw [none'] at held
        cases held
      · intro node member
        obtain rfl | member := List.mem_cons.mp member
        · exact some'
        · obtain ⟨result, held⟩ := Option.isSome_iff_exists.mp (have' node member)
          exact Option.isSome_of_eq_some (fold_within_deeper held)

/-- The depth that an arena folds with is enough. -/
theorem fold_of_fold_within {depth : Nat} {id : NodeId} {result : value}
    (found : arena.foldWithin step depth id = some result) : arena.fold? step id = some result := by
  obtain within | beyond := Nat.le_total depth arena.size
  · exact fold_within_mono within found
  · unfold fold?
    induction beyond with
    | refl => exact found
    | @step depth le ih =>
        cases known : arena.foldWithin step depth id with
        | some less =>
            rw [fold_within_deeper known] at found
            exact ih (known.trans found)
        | none =>
            obtain ⟨path, length, distinct, held⟩ :=
              path_of_fold_within known (Option.isSome_of_eq_some found)
            have few : path.length ≤ arena.size := length_le_size distinct fun node member => by
              obtain ⟨kind, known, -⟩ := fold_within_children (held node member)
              exact kind_bound known
            rw [length] at few
            have long : arena.size ≤ depth := le
            omega

/-- The value of a node by a rule that does not look at types, whatever the size of the
arena. -/
def Folds (arena : Arena) (rule : NodeId → NodeKind value → value) (id : NodeId)
    (result : value) : Prop :=
  ∃ depth, arena.foldWithin (fun node kind _ => rule node kind) depth id = some result

namespace Folds

variable {rule : NodeId → NodeKind value → value} {id : NodeId} {result other : value}

theorem found (holds : arena.Folds rule id result) :
    arena.fold? (fun node kind _ => rule node kind) id = some result := by
  obtain ⟨depth, same⟩ := holds
  exact fold_of_fold_within same

theorem unique (first : arena.Folds rule id result) (second : arena.Folds rule id other) :
    result = other :=
  Option.some.inj (first.found.symm.trans second.found)

/-- A value of a node comes from values of the nodes below it. -/
theorem parts {depth : Nat}
    (same : arena.foldWithin (fun node kind _ => rule node kind) (depth + 1) id = some result) :
    ∃ kind values, arena.kind? id = some kind ∧ result = rule id (kind.map values) ∧
      ∀ child ∈ kind.children,
        arena.foldWithin (fun node kind _ => rule node kind) depth child = some (values child) := by
  obtain ⟨kind, found, each⟩ := fold_within_children (Option.isSome_of_eq_some same)
  have known : ∀ child, child ∈ kind.children → ∃ result,
      arena.foldWithin (fun node kind _ => rule node kind) depth child = some result :=
    fun child inside => Option.isSome_iff_exists.mp (each child inside)
  have : Nonempty value := ⟨result⟩
  choose! values held using known
  rw [fold_within_node found held] at same
  exact ⟨kind, values, found, (Option.some.inj same).symm, held⟩

/-- Nodes that are added leave the value as it is. -/
theorem later {after : Arena}
    (keeps : ∀ id kind, arena.kind? id = some kind → after.kind? id = some kind)
    (holds : arena.Folds rule id result) : after.Folds rule id result := by
  obtain ⟨depth, same⟩ := holds
  refine ⟨depth, ?_⟩
  induction depth generalizing id result with
  | zero => cases same
  | succ depth ih =>
      obtain ⟨kind, values, found, rfl, held⟩ := parts same
      rw [fold_within_node (keeps id kind found) fun child inside => ih (held child inside)]

/-- One depth for some nodes. -/
theorem common_depth {nodes : List NodeId}
    (each : ∀ node ∈ nodes, ∃ result, arena.Folds rule node result) :
    ∃ depth, ∀ node ∈ nodes, ∃ result,
      arena.foldWithin (fun node kind _ => rule node kind) depth node = some result := by
  induction nodes with
  | nil => exact ⟨0, List.forall_mem_nil _⟩
  | cons first nodes ih =>
      obtain ⟨result, own, same⟩ := each first List.mem_cons_self
      obtain ⟨rest, held⟩ := ih fun node member => each node (List.mem_cons_of_mem _ member)
      refine ⟨max own rest, fun node member => ?_⟩
      obtain rfl | member := List.mem_cons.mp member
      · exact ⟨result, fold_within_mono (Nat.le_max_left _ _) same⟩
      · obtain ⟨other, same⟩ := held node member
        exact ⟨other, fold_within_mono (Nat.le_max_right _ _) same⟩

/-- The value of a node from those of its children. -/
theorem of_children {node : NodeId} {kind : NodeKind NodeId} {values : NodeId → value}
    (found : arena.kind? node = some kind)
    (each : ∀ child ∈ kind.children, arena.Folds rule child (values child)) :
    arena.Folds rule node (rule node (kind.map values)) := by
  obtain ⟨depth, known⟩ := common_depth fun child inside => ⟨values child, each child inside⟩
  refine ⟨depth + 1, fold_within_node found fun child inside => ?_⟩
  obtain ⟨result, held⟩ := known child inside
  rw [held, (each child inside).unique ⟨depth, held⟩]

/-- The value of a node from those in its slots. What a cast has noted may differ. -/
theorem node [Nonempty value] {node : NodeId} {kind : NodeKind NodeId} {form : NodeKind value}
    (found : arena.kind? node = some kind)
    (alike : kind.Alike (fun _ child result => arena.Folds rule child result) form) :
    ∃ values, form.unsourced = (kind.map values).unsourced ∧
      arena.Folds rule node (rule node (kind.map values)) := by
  have each : ∀ child, child ∈ kind.children → ∃ result, arena.Folds rule child result := by
    intro child inside
    obtain ⟨category, slot⟩ := NodeKind.child_has_slot inside
    obtain ⟨result, -, held⟩ := alike.slot_image slot
    exact ⟨result, held⟩
  choose! values held using each
  have alike' : kind.Alike (fun _ child result => result = values child) (form.map id) :=
    alike.map_right _ fun category child result inside _ holds =>
      holds.unique (held child (NodeKind.slot_is_child inside))
  rw [NodeKind.map_id] at alike'
  refine ⟨values, ?_, of_children found held⟩
  rw [alike'.eq_map, NodeKind.map_unsourced]

end Folds

/-- The tree below a node, if it is finite and all of it is in the arena. -/
def tree? (arena : Arena) (root : NodeId) : Option SyntaxTree :=
  arena.fold? (fun _ kind _ => .node kind) root

/-- The tree below a node, whatever the size of the arena. -/
def HasTree (arena : Arena) (id : NodeId) (tree : SyntaxTree) : Prop :=
  ∃ depth, arena.foldWithin (fun _ kind _ => SyntaxTree.node kind) depth id = some tree

namespace HasTree

variable {id : NodeId} {tree other : SyntaxTree}

theorem folds (holds : arena.HasTree id tree) :
    arena.Folds (fun _ kind => SyntaxTree.node kind) id tree := holds

theorem found (holds : arena.HasTree id tree) : arena.tree? id = some tree :=
  holds.folds.found

theorem unique (first : arena.HasTree id tree) (second : arena.HasTree id other) :
    tree = other :=
  first.folds.unique second

/-- The node itself is of the kind that the tree tells. -/
theorem kind (holds : arena.HasTree id tree) : ∃ kind values, arena.kind? id = some kind ∧
    tree = .node (kind.map values) := by
  obtain ⟨depth, same⟩ := holds
  cases depth with
  | zero => cases same
  | succ depth =>
      obtain ⟨kind, values, found, same, -⟩ := Folds.parts same
      exact ⟨kind, values, found, same⟩

/-- Nodes that are added leave the tree as it is. -/
theorem later {after : Arena}
    (keeps : ∀ id kind, arena.kind? id = some kind → after.kind? id = some kind)
    (holds : arena.HasTree id tree) : after.HasTree id tree :=
  holds.folds.later keeps

end HasTree

/-- The tree of a node from those in its slots. -/
theorem has_tree_node {node : NodeId} {kind : NodeKind NodeId}
    {form : NodeKind SyntaxTree} (found : arena.kind? node = some kind)
    (alike : kind.Alike (fun _ child tree => arena.HasTree child tree) form)
    (plain : kind.unsourced = kind) (plain' : form.unsourced = form) :
    arena.HasTree node (.node form) := by
  obtain ⟨values, same, held⟩ := Folds.node found alike
  rw [NodeKind.map_unsourced, plain, plain'] at same
  rw [same]
  exact held

end Arena

end ModuleLang
