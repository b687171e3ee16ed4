import Mathlib.Data.List.Lattice
import Mathlib.Data.List.Pairwise
import ModuleLang.Proofs.Tree.Preorder
import ModuleLang.Proofs.Tree.Replacing

/-!
One subtree in the place of another. That nodes form a tree can be read off their
pre-order: there is one, and it lists no node twice. Replacing a child changes a single
slot, and in the pre-order one segment gives way to another. If the tree that comes in
shares nodes with the subtree that goes out only, the new list has no repetitions either,
so what is there after the replacement is a tree again.

The tree that comes in may hold all of the subtree that goes out, as a wrapper does, some
of it, or none.
-/

namespace ModuleLang.Arena

variable {arena : Arena} {root id : NodeId}

namespace Traverses

variable {nodes order : List NodeId}

/-- A listed node is one of the first or stands in a slot of a listed one, and that as
often as it is listed. -/
theorem perm_children (traverses : arena.Traverses nodes order) :
    order.Perm (nodes ++ order.flatMap arena.children) := by
  induction traverses with
  | nil => exact .nil
  | @cons id nodes inner rest _ _ below behind =>
      rw [List.flatMap_cons, List.flatMap_append, List.cons_append]
      refine .cons id ?_
      calc (inner ++ rest).Perm ((arena.children id ++ inner.flatMap arena.children) ++
              (nodes ++ rest.flatMap arena.children)) := below.append behind
        _ = ((arena.children id ++ inner.flatMap arena.children) ++ nodes) ++
              rest.flatMap arena.children := (List.append_assoc _ _ _).symm
        List.Perm _ ((nodes ++ (arena.children id ++ inner.flatMap arena.children)) ++
              rest.flatMap arena.children) := List.perm_append_comm.append_right _
        _ = _ := by simp only [List.append_assoc]

/-- Behind a listed node the pre-order of its children is listed. -/
theorem children_behind (traverses : arena.Traverses nodes order) (member : id ∈ order) :
    ∃ inner, arena.Traverses (arena.children id) inner ∧ (id :: inner).Sublist order := by
  induction traverses with
  | nil => cases member
  | @cons first nodes inner rest below _ inside behind =>
      rcases List.mem_cons.mp member with rfl | member
      · exact ⟨inner, below, (List.sublist_append_left _ _).cons_cons _⟩
      · rcases List.mem_append.mp member with member | member
        · rcases inside member with ⟨own, held, part⟩
          exact ⟨own, held, (part.trans (List.sublist_append_left _ _)).cons _⟩
        · rcases behind member with ⟨own, held, part⟩
          exact ⟨own, held, (part.trans (List.sublist_append_right _ _)).cons _⟩

/-- Where no node is listed twice, the nodes form a tree. -/
theorem is_tree (traverses : arena.Traverses [root] order) (once : order.Nodup) :
    arena.IsTree root := by
  have listed : ∀ {node}, arena.Reachable root node → node ∈ order := traverses.mem_root_iff.mpr
  have slots := (List.nodup_append.mp (traverses.perm_children.nodup_iff.mp once)).2.1
  rcases List.nodup_flatMap.mp slots with ⟨distinct, apart⟩
  constructor
  · intro node below
    exact distinct node (listed below)
  · intro first second child left right inFirst inSecond
    by_contra different
    have : Std.Symm (Function.onFun List.Disjoint arena.children) :=
      ⟨fun _ _ => List.Disjoint.symm⟩
    exact apart.forall (listed left) (listed right) different inFirst inSecond
  · intro parent child above slot below
    rcases traverses.children_behind (listed above) with ⟨inner, held, part⟩
    have fresh := (List.nodup_cons.mp (once.sublist part)).1
    exact fresh (held.mem_iff.mpr ⟨child, slot, below⟩)

theorem holds_tree (traverses : arena.Traverses [root] order) (once : order.Nodup)
    (present : ∀ id ∈ order, id.index < arena.size) : arena.HoldsTree root where
  toIsTree := traverses.is_tree once
  present id below := present id (traverses.mem_root_iff.mpr below)

end Traverses

/-- Whether there is a tree shows in the loop, given one turn more than there are nodes:
it ends, and has listed nodes of the arena, each of them once. -/
theorem holds_tree_iff : arena.HoldsTree root ↔
    (arena.unwind (arena.size + 1) [root]).length ≤ arena.size ∧
      (arena.unwind (arena.size + 1) [root]).Nodup ∧
      ∀ id ∈ arena.unwind (arena.size + 1) [root], id.index < arena.size := by
  constructor
  · intro tree
    have once := tree.nodup_descendants
    have present : ∀ id ∈ arena.descendants root, id.index < arena.size := fun id member =>
      tree.present id (tree.mem_descendants.mp member)
    have fits := length_le_size once present
    rw [tree.traverses_descendants.unwind_of_le (Nat.le_succ_of_le fits)]
    exact ⟨fits, once, present⟩
  · intro ⟨ends, once, present⟩
    exact (traverses_of_unwind (Nat.lt_succ_of_le ends)).holds_tree once present

instance : Decidable (arena.HoldsTree root) := decidable_of_iff _ holds_tree_iff.symm

/-- Of all that the nodes hold one slot of `parent` is not as it was: `old` stood in it
and in no other slot of that node, and now `new` stands there. -/
structure SlotChanged (arena changed : Arena) (parent old new : NodeId) : Prop where
  size : changed.size = arena.size
  others : ∀ id, id ≠ parent → changed.node? id = arena.node? id
  type : changed.type? parent = arena.type? parent
  slot : ∃ kind left right, arena.kind? parent = some kind ∧
    kind.children = left ++ old :: right ∧ old ∉ left ∧ old ∉ right ∧
    changed.kind? parent = some (kind.map (NodeKind.swap old new))

section Exchange

variable {changed : Arena} {parent old new : NodeId} {nodes order incoming : List NodeId}

/-- A child that stands in one slot only is replaced there. -/
theorem replace_child_changed (new : NodeId) (distinct : (arena.children parent).Nodup)
    (slot : old ∈ arena.children parent) : ∃ changed,
      arena.replaceChild? parent old new = some changed ∧
        SlotChanged arena changed parent old new := by
  rcases kind_of_child slot with ⟨kind, found, member⟩
  rw [children_of_kind found] at distinct
  refine ⟨arena.setKind parent (kind.map (NodeKind.swap old new)), ?_, ?_⟩
  · rw [replaceChild?, found, Option.bind_some, NodeKind.replace_child_eq new kind distinct member]
    rfl
  · rcases List.append_of_mem member with ⟨left, right, whole⟩
    rw [whole, List.nodup_middle, List.nodup_cons, List.mem_append, not_or] at distinct
    constructor
    · exact size_setKind _ _ _
    · intro id apart
      rw [node_set_kind, if_neg (Ne.symm apart)]
    · exact type?_setKind _ _ _ _
    · exact ⟨kind, left, right, found, whole, distinct.1.1, distinct.1.2,
        kind_set_kind (kind_bound found) _⟩

namespace SlotChanged

variable (change : SlotChanged arena changed parent old new)

include change

theorem children_other (apart : id ≠ parent) : changed.children id = arena.children id := by
  rw [children, children, kind_of_node (change.others id apart)]

theorem children_parent : ∃ left right, arena.children parent = left ++ old :: right ∧
    changed.children parent = left ++ new :: right := by
  rcases change.slot with ⟨kind, left, right, found, whole, notLeft, notRight, now⟩
  have same : ∀ {part : List NodeId}, old ∉ part → part.map (NodeKind.swap old new) = part := by
    intro part absent
    have each : ∀ seen ∈ part, NodeKind.swap old new seen = id seen := fun seen member =>
      NodeKind.swap_of_ne fun equal => absent (equal ▸ member)
    rw [List.map_congr_left each, List.map_id]
  refine ⟨left, right, (children_of_kind found).trans whole, ?_⟩
  rw [children_of_kind now, NodeKind.children_map, whole, List.map_append, List.map_cons,
    same notLeft, same notRight, NodeKind.swap, if_pos rfl]

/-- Nodes that are listed without the changed one are listed as before. -/
theorem traverses_same (traverses : arena.Traverses nodes order) (apart : parent ∉ order) :
    changed.Traverses nodes order := by
  induction traverses with
  | nil => exact .nil
  | cons _ _ below behind =>
      rw [List.mem_cons, List.mem_append, not_or, not_or] at apart
      refine .cons ?_ (behind apart.2.2)
      rw [change.children_other (Ne.symm apart.1)]
      exact below apart.2.1

/-- Below the changed node the pre-order of the old child gives way to that of the new
one. -/
theorem traverses_slots {inner : List NodeId}
    (below : arena.Traverses (arena.children parent) inner) (apart : parent ∉ inner)
    (come : changed.Traverses [new] incoming) :
    ∃ first outgoing last, inner = first ++ outgoing ++ last ∧ arena.Traverses [old] outgoing ∧
      changed.Traverses (changed.children parent) (first ++ incoming ++ last) := by
  rcases change.children_parent with ⟨left, right, was, now⟩
  rw [was, ← List.singleton_append] at below
  rcases below.split with ⟨first, rest, rfl, leftTraverses, restTraverses⟩
  rcases restTraverses.split with ⟨outgoing, last, rfl, oldTraverses, rightTraverses⟩
  simp only [List.mem_append, not_or] at apart
  refine ⟨first, outgoing, last, (List.append_assoc _ _ _).symm, oldTraverses, ?_⟩
  rw [now, ← List.singleton_append, List.append_assoc]
  have before := change.traverses_same leftTraverses apart.1
  have behind := change.traverses_same rightTraverses apart.2.2
  exact before.append (come.append behind)

/-- Wherever the changed node is listed, the pre-order of the old child gives way to that
of the new one. -/
theorem traverses_exchanged (traverses : arena.Traverses nodes order) (once : order.Nodup)
    (member : parent ∈ order) (come : changed.Traverses [new] incoming) :
    ∃ before outgoing after, order = before ++ outgoing ++ after ∧ arena.Traverses [old] outgoing ∧
      changed.Traverses nodes (before ++ incoming ++ after) := by
  -- The changed node is the first one, or is listed below it, or behind all that is.
  induction traverses with
  | nil => cases member
  | @cons id nodes inner rest below behind inside further =>
      rcases List.nodup_cons.mp once with ⟨fresh, apart⟩
      rcases List.nodup_append.mp apart with ⟨onceInner, onceRest, disjoint⟩
      rw [List.mem_append, not_or] at fresh
      rcases List.mem_cons.mp member with rfl | member
      · rcases change.traverses_slots below fresh.1 come with
          ⟨before, outgoing, after, rfl, oldTraverses, listed⟩
        refine ⟨parent :: before, outgoing, after ++ rest, by simp, oldTraverses, ?_⟩
        have whole := Traverses.cons listed (change.traverses_same behind fresh.2)
        simpa using whole
      · rcases List.mem_append.mp member with member | member
        · rcases inside onceInner member with ⟨before, outgoing, after, rfl, oldTraverses, listed⟩
          have away : parent ∉ rest := fun also => disjoint parent member parent also rfl
          have upper : id ≠ parent := fun equal => fresh.1 (equal ▸ member)
          refine ⟨id :: before, outgoing, after ++ rest, by simp, oldTraverses, ?_⟩
          rw [← change.children_other upper] at listed
          have whole := Traverses.cons listed (change.traverses_same behind away)
          simpa using whole
        · rcases further onceRest member with ⟨before, outgoing, after, rfl, oldTraverses, listed⟩
          have away : parent ∉ inner := fun also => disjoint parent also parent member rfl
          have upper : id ≠ parent := fun equal => fresh.2 (equal ▸ member)
          refine ⟨id :: (inner ++ before), outgoing, after, by simp, oldTraverses, ?_⟩
          have kept := change.traverses_same below away
          rw [← change.children_other upper] at kept
          have whole := Traverses.cons kept listed
          simpa using whole

end SlotChanged

end Exchange

/-- A segment without repetitions comes in where another one goes out, and shares with
the list what was in that one only. -/
theorem nodup_exchanged {before outgoing after incoming : List NodeId}
    (once : (before ++ outgoing ++ after).Nodup) (fresh : incoming.Nodup)
    (shared : ∀ id ∈ incoming, id ∈ before ++ outgoing ++ after → id ∈ outgoing) :
    (before ++ incoming ++ after).Nodup := by
  rw [List.append_assoc, List.nodup_append', List.nodup_append'] at *
  rcases once with ⟨onceBefore, ⟨-, onceAfter, behind⟩, front⟩
  refine ⟨onceBefore, ⟨fresh, onceAfter, ?_⟩, ?_⟩
  · intro id came later
    exact behind (shared id came (by simp [later])) later
  · intro id earlier other
    rcases List.mem_append.mp other with came | later
    · exact front earlier (List.mem_append_left _ (shared id came (by simp [earlier])))
    · exact front earlier (List.mem_append_right _ later)

namespace HoldsTree

variable {changed : Arena} {parent old new : NodeId}

/-- A tree may take the place of a subtree if it shares nodes with that subtree only. -/
theorem exchanged (tree : arena.HoldsTree root) (added : arena.HoldsTree new)
    (above : arena.Reachable root parent) (slot : old ∈ arena.children parent)
    (meets : ∀ id, arena.Reachable new id → arena.Reachable root id → arena.Reachable old id)
    (change : SlotChanged arena changed parent old new) :
    changed.HoldsTree root ∧ ∃ before outgoing incoming after,
      arena.Traverses [old] outgoing ∧ arena.Traverses [new] incoming ∧
      arena.descendants root = before ++ outgoing ++ after ∧
      changed.descendants root = before ++ incoming ++ after := by
  -- The changed node is not below the new child, whose pre-order is therefore as it was.
  have away : parent ∉ arena.descendants new := fun member =>
    tree.acyclic parent old above slot (meets parent (added.mem_descendants.mp member) above)
  have come := change.traverses_same added.traverses_descendants away
  rcases change.traverses_exchanged tree.traverses_descendants tree.nodup_descendants
    (tree.mem_descendants.mpr above) come with
    ⟨before, outgoing, after, was, oldTraverses, traverses⟩
  have shared : ∀ id ∈ arena.descendants new, id ∈ arena.descendants root → id ∈ outgoing := by
    intro id came member
    rw [oldTraverses.mem_root_iff]
    exact meets id (added.mem_descendants.mp came) (tree.mem_descendants.mp member)
  have present : ∀ id ∈ before ++ arena.descendants new ++ after, id.index < changed.size := by
    intro id member
    rw [change.size]
    by_cases came : id ∈ arena.descendants new
    · exact added.present id (added.mem_descendants.mp came)
    · have kept : id ∈ before ∨ id ∈ after := by simpa [came] using member
      have listed : id ∈ arena.descendants root := by
        rw [was]
        rcases kept with earlier | later
        · simp [earlier]
        · simp [later]
      exact tree.present id (tree.mem_descendants.mp listed)
  have once : (before ++ arena.descendants new ++ after).Nodup :=
    nodup_exchanged (was ▸ tree.nodup_descendants) added.nodup_descendants (was ▸ shared)
  have now := traverses.holds_tree once present
  have is := now.traverses_descendants.unique traverses
  exact ⟨now, before, outgoing, arena.descendants new, after, oldTraverses,
    added.traverses_descendants, was, is⟩

/-- From the root of a tree the loop over a stack comes to an end and has listed the
pre-order, each node once. When a child is replaced by a node whose tree shares nodes with
the subtree of that child only, its slot is all that changes, the nodes form a tree again,
and in the list the pre-order of the child gives way to that of the other node. -/
theorem traversed_and_exchanged (tree : arena.HoldsTree root) :
    arena.Traverses [root] (arena.descendants root) ∧
    (∀ budget, (arena.descendants root).length ≤ budget →
      arena.unwind budget [root] = arena.descendants root) ∧
    (arena.descendants root).Nodup ∧
    (∀ id, id ∈ arena.descendants root ↔ arena.Reachable root id) ∧
    ∀ parent old new, arena.Reachable root parent → old ∈ arena.children parent →
      arena.HoldsTree new →
      (∀ id, arena.Reachable new id → arena.Reachable root id → arena.Reachable old id) →
      ∃ changed, arena.replaceChild? parent old new = some changed ∧
        SlotChanged arena changed parent old new ∧ changed.HoldsTree root ∧
        ∃ before outgoing incoming after,
          arena.Traverses [old] outgoing ∧ arena.Traverses [new] incoming ∧
          arena.descendants root = before ++ outgoing ++ after ∧
          changed.descendants root = before ++ incoming ++ after := by
  refine ⟨tree.traverses_descendants, ?_, tree.nodup_descendants, fun _ => tree.mem_descendants,
    ?_⟩
  · intro budget enough
    exact tree.traverses_descendants.unwind_of_le enough
  · intro parent old new above slot added meets
    rcases replace_child_changed new (tree.distinct parent above) slot with
      ⟨changed, replaced, change⟩
    exact ⟨changed, replaced, change, tree.exchanged added above slot meets change⟩

/-- The body `f(1 + a * 2); break;`, and a cast that is to go around the product. -/
def castArena : Arena where
  nodes := #[⟨.literal (.long 1), some .long⟩, ⟨.member "a", some .int⟩,
    ⟨.literal (.int 2), some .int⟩, ⟨.binary .multiply ⟨1⟩ ⟨2⟩, some .int⟩,
    ⟨.binary .plus ⟨0⟩ ⟨3⟩, none⟩, ⟨.call "f" [⟨4⟩], none⟩, ⟨.breakLoop, none⟩,
    ⟨.body [⟨5⟩, ⟨6⟩], none⟩, ⟨.typeRef "long" [], some .long⟩,
    ⟨.cast ⟨8⟩ ⟨3⟩ (some .int), some .long⟩]

/-- The cast comes in with the product below it. -/
theorem traversed_and_exchanged_cast :
    castArena.HoldsTree ⟨7⟩ ∧ castArena.HoldsTree ⟨9⟩ ∧ castArena.Reachable ⟨7⟩ ⟨4⟩ ∧
    ⟨3⟩ ∈ castArena.children ⟨4⟩ ∧
    (∀ id, castArena.Reachable ⟨9⟩ id → castArena.Reachable ⟨7⟩ id →
      castArena.Reachable ⟨3⟩ id) ∧
    castArena.descendants ⟨7⟩ = [⟨7⟩, ⟨5⟩, ⟨4⟩, ⟨0⟩, ⟨3⟩, ⟨1⟩, ⟨2⟩, ⟨6⟩] ∧
    ∃ changed, castArena.replaceChild? ⟨4⟩ ⟨3⟩ ⟨9⟩ = some changed ∧
      SlotChanged castArena changed ⟨4⟩ ⟨3⟩ ⟨9⟩ ∧ changed.HoldsTree ⟨7⟩ ∧
      ∃ before after, castArena.descendants ⟨7⟩ = before ++ [⟨3⟩, ⟨1⟩, ⟨2⟩] ++ after ∧
        changed.descendants ⟨7⟩ = before ++ [⟨9⟩, ⟨8⟩, ⟨3⟩, ⟨1⟩, ⟨2⟩] ++ after := by
  have tree : castArena.HoldsTree ⟨7⟩ := by decide
  have added : castArena.HoldsTree ⟨9⟩ := by decide
  have product : castArena.HoldsTree ⟨3⟩ := by decide
  have above : castArena.Reachable ⟨7⟩ ⟨4⟩ := tree.mem_descendants.mp (by decide)
  have slot : ⟨3⟩ ∈ castArena.children ⟨4⟩ := by decide
  have shared : ∀ id ∈ castArena.descendants ⟨9⟩, id ∈ castArena.descendants ⟨7⟩ →
      id ∈ castArena.descendants ⟨3⟩ := by decide
  have meets : ∀ id, castArena.Reachable ⟨9⟩ id → castArena.Reachable ⟨7⟩ id →
      castArena.Reachable ⟨3⟩ id := by
    intro id came member
    rw [← product.mem_descendants]
    exact shared id (added.mem_descendants.mpr came) (tree.mem_descendants.mpr member)
  rcases traversed_and_exchanged tree with ⟨-, -, -, -, exchanges⟩
  rcases exchanges ⟨4⟩ ⟨3⟩ ⟨9⟩ above slot added meets with
    ⟨changed, replaced, change, now, before, outgoing, incoming, after, old, new, was, is⟩
  have isOld : outgoing = [⟨3⟩, ⟨1⟩, ⟨2⟩] := old.unique product.traverses_descendants
  have isNew : incoming = [⟨9⟩, ⟨8⟩, ⟨3⟩, ⟨1⟩, ⟨2⟩] := new.unique added.traverses_descendants
  subst isOld isNew
  exact ⟨tree, added, above, slot, meets, by decide, changed, replaced, change, now, before, after,
    was, is⟩

end HoldsTree

end ModuleLang.Arena
