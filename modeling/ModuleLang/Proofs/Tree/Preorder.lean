import Mathlib.Algebra.GroupWithZero.Nat
import ModuleLang.Proofs.Tree.Forest

/-!
The pre-order. It is a relation, as nodes from which a way down does not end have none.
Taking nodes off a stack lists the pre-order of those on top before it comes to the
others, so the loop ends by itself exactly if there is a pre-order, and has listed it.
Where the nodes from a root on form a tree of the arena, a path down cannot be longer
than the arena, so all of them are listed, each of them once.
-/

namespace ModuleLang.Arena

variable {arena : Arena} {root id : NodeId} {depth : Nat}

/-- Some nodes and their pre-order: the first of them, the pre-order of its children in
the order of its slots, and then that of the other nodes. -/
inductive Traverses (arena : Arena) : (nodes order : List NodeId) → Prop
  | nil : Traverses arena [] []
  | cons {id nodes inner rest} (below : Traverses arena (arena.children id) inner)
      (behind : Traverses arena nodes rest) : Traverses arena (id :: nodes) (id :: (inner ++ rest))

namespace Traverses

variable {nodes more order rest other : List NodeId}

theorem append (first : arena.Traverses nodes order) (second : arena.Traverses more rest) :
    arena.Traverses (nodes ++ more) (order ++ rest) := by
  induction first with
  | nil => exact second
  | cons below _ _ ih =>
      rw [List.cons_append, List.cons_append, List.append_assoc]
      exact .cons below ih

theorem split (traverses : arena.Traverses (nodes ++ more) order) :
    ∃ first second, order = first ++ second ∧ arena.Traverses nodes first ∧
      arena.Traverses more second := by
  induction nodes generalizing order with
  | nil => exact ⟨[], order, rfl, .nil, traverses⟩
  | cons id nodes ih =>
      cases traverses with
      | @cons _ _ inner _ below behind =>
          obtain ⟨first, second, rfl, left, right⟩ := ih behind
          refine ⟨id :: (inner ++ first), second, ?_, .cons below left, right⟩
          rw [List.cons_append, List.append_assoc]

/-- Nodes have one pre-order. -/
theorem unique (traverses : arena.Traverses nodes order) (also : arena.Traverses nodes other) :
    order = other := by
  induction traverses generalizing other with
  | nil =>
      cases also
      rfl
  | cons _ _ below behind =>
      cases also with
      | cons below' behind' => rw [below below', behind behind']

/-- What is listed for the nodes on top comes before what is listed for the rest of the
stack. -/
theorem unwind_eq (traverses : arena.Traverses nodes order) (budget : Nat) (stack : List NodeId) :
    arena.unwind (order.length + budget) (nodes ++ stack) = order ++ arena.unwind budget stack := by
  induction traverses generalizing budget stack with
  | nil =>
      rw [List.length_nil, Nat.zero_add]
      rfl
  | @cons id nodes inner rest _ _ below behind =>
      have turns : (id :: (inner ++ rest)).length + budget =
          inner.length + (rest.length + budget) + 1 := by
        simp only [List.length_cons, List.length_append]
        omega
      rw [turns, List.cons_append, unwind, below, behind, List.cons_append, List.append_assoc]

/-- The loop ends by itself after one turn for each node. -/
theorem unwind_of_le {budget : Nat} (traverses : arena.Traverses nodes order)
    (enough : order.length ≤ budget) : arena.unwind budget nodes = order := by
  have all := traverses.unwind_eq (budget - order.length) []
  rw [Nat.add_sub_cancel' enough, List.append_nil] at all
  rw [all]
  cases budget - order.length <;> exact List.append_nil _

/-- The nodes of a pre-order are those that lie below. -/
theorem mem_iff (traverses : arena.Traverses nodes order) :
    id ∈ order ↔ ∃ node ∈ nodes, arena.Reachable node id := by
  induction traverses with
  | nil => simp
  | @cons first nodes inner rest _ _ below behind =>
      rw [List.mem_cons, List.mem_append, below, behind]
      constructor
      · rintro (rfl | ⟨child, slot, path⟩ | ⟨node, member, path⟩)
        · exact ⟨id, List.mem_cons_self, .refl⟩
        · exact ⟨first, List.mem_cons_self, .below_child slot path⟩
        · exact ⟨node, List.mem_cons_of_mem _ member, path⟩
      · rintro ⟨node, member, path⟩
        obtain rfl | inside := List.mem_cons.mp member
        · obtain same | child := reachable_cases path
          · exact Or.inl same
          · exact Or.inr (Or.inl child)
        · exact Or.inr (Or.inr ⟨node, inside, path⟩)

theorem mem_root_iff (traverses : arena.Traverses [root] order) :
    id ∈ order ↔ arena.Reachable root id := by
  rw [traverses.mem_iff]
  simp

end Traverses

/-- A loop that ends before its budget does has listed the pre-order. -/
theorem traverses_of_unwind {budget : Nat} {stack : List NodeId}
    (ends : (arena.unwind budget stack).length < budget) :
    arena.Traverses stack (arena.unwind budget stack) := by
  induction budget generalizing stack with
  | zero => exact absurd ends (Nat.not_lt_zero _)
  | succ budget ih =>
      cases stack with
      | nil => exact .nil
      | cons id stack =>
          rw [unwind] at *
          rw [List.length_cons, Nat.add_lt_add_iff_right] at ends
          obtain ⟨inner, rest, same, below, behind⟩ := (ih ends).split
          rw [same]
          exact .cons below behind

/-- No path down from a node has more than `depth` nodes. -/
def Shallow (arena : Arena) : (depth : Nat) → NodeId → Prop
  | 0, _ => False
  | depth + 1, id => ∀ child ∈ arena.children id, Shallow arena depth child

/-- A node, followed by those below its children, one child after the other. -/
def preorder (arena : Arena) : (depth : Nat) → NodeId → List NodeId
  | 0, _ => []
  | depth + 1, id => id :: (arena.children id).flatMap (preorder arena depth)

theorem extent_succ : arena.extent (depth + 1) id =
    1 + ((arena.children id).map (arena.extent depth)).sum := rfl

theorem length_preorder : (arena.preorder depth id).length = arena.extent depth id := by
  induction depth generalizing id with
  | zero => rfl
  | succ depth ih =>
      have same : List.length ∘ arena.preorder depth = arena.extent depth := funext fun _ => ih
      rw [preorder, extent_succ, List.length_cons, List.length_flatMap, Nat.add_comm]
      exact congrArg _ (congrArg List.sum (congrArg₂ _ same rfl))

theorem traverses_children {nodes : List NodeId}
    (each : ∀ id ∈ nodes, arena.Traverses [id] (arena.preorder depth id)) :
    arena.Traverses nodes (nodes.flatMap (arena.preorder depth)) := by
  induction nodes with
  | nil => exact .nil
  | cons id nodes ih =>
      exact (each id List.mem_cons_self).append
        (ih fun other member => each other (List.mem_cons_of_mem _ member))

theorem traverses_preorder (shallow : arena.Shallow depth id) :
    arena.Traverses [id] (arena.preorder depth id) := by
  induction depth generalizing id with
  | zero => exact shallow.elim
  | succ depth ih =>
      have below := traverses_children fun child slot => ih (shallow child slot)
      have whole := Traverses.cons below .nil
      rw [List.append_nil] at whole
      exact whole

theorem descendants_eq (shallow : arena.Shallow arena.size root) :
    arena.descendants root = arena.preorder arena.size root :=
  (traverses_preorder shallow).unwind_of_le (Nat.le_of_eq length_preorder)

theorem mem_preorder (shallow : arena.Shallow depth root) :
    id ∈ arena.preorder depth root ↔ arena.Reachable root id :=
  (traverses_preorder shallow).mem_root_iff

namespace IsTree

variable (tree : arena.IsTree root)

include tree

theorem nodup_preorder (above : arena.Reachable root id) (shallow : arena.Shallow depth id) :
    (arena.preorder depth id).Nodup := by
  induction depth generalizing id with
  | zero => exact shallow.elim
  | succ depth ih =>
      rw [preorder, List.nodup_cons, List.nodup_flatMap]
      refine ⟨fun again => ?_, fun child slot => ih (above.tail slot) (shallow child slot), ?_⟩
      · obtain ⟨child, slot, below⟩ := List.mem_flatMap.mp again
        exact tree.acyclic id child above slot ((mem_preorder (shallow child slot)).mp below)
      · refine (tree.distinct id above).imp_of_mem fun {first second} left right apart => ?_
        intro node belowFirst belowSecond
        rw [mem_preorder (shallow _ left)] at belowFirst
        rw [mem_preorder (shallow _ right)] at belowSecond
        exact apart (tree.siblings_disjoint above left right belowFirst belowSecond)

/-- A node is not among those that it lies below. -/
theorem not_seen {seen : List NodeId}
    (strict : ∀ node ∈ seen, arena.Reachable root node ∧
      ∃ child ∈ arena.children node, arena.Reachable child id) : id ∉ seen := by
  intro member
  obtain ⟨reached, child, slot, below⟩ := strict id member
  exact tree.acyclic id child reached slot below

end IsTree

/-- The nodes from a root on are nodes of the arena and form a tree. -/
structure HoldsTree (arena : Arena) (root : NodeId) : Prop extends arena.IsTree root where
  present : ∀ id, arena.Reachable root id → id.index < arena.size

namespace HoldsTree

variable (tree : arena.HoldsTree root)

include tree

/-- So do the nodes from one of them on. -/
theorem below (above : arena.Reachable root id) : arena.HoldsTree id where
  toIsTree := tree.toIsTree.below above
  present other path := tree.present other (above.trans path)

/-- The nodes on a path down are different from each other, so the path can go on only as
long as the arena has more of them. -/
theorem shallow_of_seen {seen : List NodeId} (distinct : seen.Nodup)
    (strict : ∀ node ∈ seen, arena.Reachable root node ∧
      ∃ child ∈ arena.children node, arena.Reachable child id)
    (above : arena.Reachable root id) (room : depth + seen.length = arena.size) :
    arena.Shallow depth id := by
  induction depth generalizing id seen with
  | zero =>
      have fresh : (id :: seen).Nodup := List.nodup_cons.mpr ⟨tree.not_seen strict, distinct⟩
      have fits := length_le_size fresh fun node member => by
        obtain rfl | inside := List.mem_cons.mp member
        · exact tree.present _ above
        · exact tree.present _ (strict _ inside).1
      rw [List.length_cons] at fits
      omega
  | succ depth ih =>
      intro child slot
      have fresh : (id :: seen).Nodup := List.nodup_cons.mpr ⟨tree.not_seen strict, distinct⟩
      refine ih fresh (fun node member => ?_) (above.tail slot) ?_
      · obtain rfl | inside := List.mem_cons.mp member
        · exact ⟨above, child, slot, .refl⟩
        · obtain ⟨reached, other, first, below⟩ := strict node inside
          exact ⟨reached, other, first, below.tail slot⟩
      · rw [List.length_cons]
        omega

theorem shallow : arena.Shallow arena.size root :=
  tree.shallow_of_seen List.nodup_nil (List.forall_mem_nil _) .refl rfl

theorem traverses_descendants : arena.Traverses [root] (arena.descendants root) := by
  rw [descendants_eq tree.shallow]
  exact traverses_preorder tree.shallow

/-- Every node below is listed once. -/
theorem mem_descendants : id ∈ arena.descendants root ↔ arena.Reachable root id :=
  tree.traverses_descendants.mem_root_iff

theorem nodup_descendants : (arena.descendants root).Nodup := by
  rw [descendants_eq tree.shallow]
  exact tree.nodup_preorder .refl tree.shallow

end HoldsTree

end ModuleLang.Arena
