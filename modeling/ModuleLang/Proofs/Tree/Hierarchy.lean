import ModuleLang.Proofs.Tree.Construction
import ModuleLang.Proofs.Tree.Preorder

/-!
Hierarchies. The nodes that can be reached from a root form a tree, and every one
of them covers the nodes in its slots. A tree that was built from the leaves up is
a hierarchy from each of its nodes on.
-/

namespace ModuleLang

namespace SourceTree

/-- Every node from a root on covers the nodes in its slots. -/
def Nests (tree : SourceTree) (root : NodeId) : Prop :=
  ∀ parent child, tree.arena.Reachable root parent → child ∈ tree.arena.children parent →
    ∃ inner outer, tree.spans.span? child = some inner ∧ tree.spans.span? parent = some outer ∧
      outer.start ≤ inner.start ∧ inner.stop ≤ outer.stop

/-- Behind every node from a root on the next one in its parent begins, unless the
parent is the root of a module. -/
def Orders (tree : SourceTree) (root : NodeId) : Prop :=
  ∀ parent kind, tree.arena.Reachable root parent → tree.arena.kind? parent = some kind →
    kind.isRoot = false → kind.children.Pairwise fun left right =>
      ∃ first second, tree.spans.span? left = some first ∧ tree.spans.span? right = some second ∧
        first.stop ≤ second.start

/-- Where two nodes have spans, that of the first ends before that of the second
begins. -/
def Before (tree : SourceTree) (first second : NodeId) : Prop :=
  ∀ left right, tree.spans.span? first = some left → tree.spans.span? second = some right →
    left.stop ≤ right.start

/-- What makes the nodes from a root on a tree in which every node covers the nodes
in its slots. A rank that falls on every way down leaves no room for a cycle. -/
structure Hierarchy (tree : SourceTree) (root : NodeId) : Prop where
  present : ∀ id, tree.arena.Reachable root id →
    id.index < tree.arena.size ∧ (tree.spans.span? id).isSome
  distinct : ∀ node, tree.arena.Reachable root node → (tree.arena.children node).Nodup
  single : ∀ first second child, tree.arena.Reachable root first →
    tree.arena.Reachable root second → child ∈ tree.arena.children first →
    child ∈ tree.arena.children second → first = second
  ranked : ∃ rank : NodeId → Nat, ∀ parent child, tree.arena.Reachable root parent →
    child ∈ tree.arena.children parent → rank child < rank parent
  covers : ∀ parent child, tree.arena.Reachable root parent →
    child ∈ tree.arena.children parent → tree.Within child parent

namespace Hierarchy

variable {tree : SourceTree} {root : NodeId} (hierarchy : tree.Hierarchy root)

include hierarchy

theorem is_tree : tree.arena.IsTree root where
  distinct := hierarchy.distinct
  single := hierarchy.single
  acyclic := by
    intro parent child above slot below
    rcases hierarchy.ranked with ⟨rank, falls⟩
    have reached : tree.arena.Reachable root child := Relation.ReflTransGen.tail above slot
    have lower : ∀ id, tree.arena.Reachable child id → rank id ≤ rank child := by
      intro id path
      induction path with
      | refl => exact Nat.le_refl _
      | tail path step ih => exact Nat.le_trans (Nat.le_of_lt (falls _ _ (reached.trans path) step)) ih
    exact Nat.lt_irrefl _ (Nat.lt_of_lt_of_le (falls parent child above slot) (lower parent below))

theorem holds_tree : tree.arena.HoldsTree root where
  toIsTree := hierarchy.is_tree
  present id below := (hierarchy.present id below).1

theorem nests : tree.Nests root := by
  intro parent child above slot
  have reached : tree.arena.Reachable root child := Relation.ReflTransGen.tail above slot
  rcases Option.isSome_iff_exists.mp (hierarchy.present child reached).2 with ⟨inner, first⟩
  rcases Option.isSome_iff_exists.mp (hierarchy.present parent above).2 with ⟨outer, second⟩
  have within := hierarchy.covers parent child above slot inner outer first second
  exact ⟨inner, outer, first, second, within.1, within.2⟩

theorem spanned {id : NodeId} (above : tree.arena.Reachable root id) :
    ∃ span, tree.spans.span? id = some span :=
  Option.isSome_iff_exists.mp (hierarchy.present id above).2

/-- A node covers whatever lies below it. -/
theorem within {upper lower : NodeId} (above : tree.arena.Reachable root upper)
    (below : tree.arena.Reachable upper lower) : tree.Within lower upper := by
  induction below with
  | refl =>
      intro first second left right
      cases left.symm.trans right
      exact ⟨Position.le_refl _, Position.le_refl _⟩
  | @tail middle lower path slot ih =>
      intro first second left right
      rcases hierarchy.spanned (above.trans path) with ⟨between, known⟩
      have inner := hierarchy.covers middle lower (above.trans path) slot first between left known
      have outer := ih between second known right
      exact ⟨Position.le_trans outer.1 inner.1, Position.le_trans inner.2 outer.2⟩

/-- What lies below two nodes is in the order of these. -/
theorem before_below {first second left right : NodeId} (before : tree.Before first second)
    (aboveLeft : tree.arena.Reachable root first) (aboveRight : tree.arena.Reachable root second)
    (belowLeft : tree.arena.Reachable first left) (belowRight : tree.arena.Reachable second right) :
    tree.Before left right := by
  intro inner other leftSpan rightSpan
  rcases hierarchy.spanned aboveLeft with ⟨leftOuter, leftKnown⟩
  rcases hierarchy.spanned aboveRight with ⟨rightOuter, rightKnown⟩
  have ends := (hierarchy.within aboveLeft belowLeft inner leftOuter leftSpan leftKnown).2
  have begins := (hierarchy.within aboveRight belowRight other rightOuter rightSpan rightKnown).1
  exact Position.le_trans ends
    (Position.le_trans (before leftOuter rightOuter leftKnown rightKnown) begins)

end Hierarchy

namespace Constructed

variable {limit : Position} {tree : SourceTree} (constructed : tree.Constructed limit)
  {root : NodeId} (known : root.index < tree.arena.size)

include constructed known

theorem reached {id : NodeId} (below : tree.arena.Reachable root id) :
    id.index < tree.arena.size :=
  Nat.lt_of_le_of_lt (constructed.forest.index_le below) known

theorem hierarchy : tree.Hierarchy root where
  present id below :=
    ⟨constructed.reached known below, (constructed.recorded id).mpr (constructed.reached known below)⟩
  distinct node _ := constructed.forest.distinct node
  single _ _ _ _ _ := constructed.forest.single
  ranked := ⟨NodeId.index, fun _ _ _ => constructed.forest.below⟩
  covers _ _ _ := constructed.covered

theorem orders : tree.Orders root := by
  intro parent kind below found plain
  apply (constructed.ordered found plain).imp_of_mem
  intro left right first second precedes
  have spanned : ∀ child ∈ kind.children, ∃ span, tree.spans.span? child = some span := by
    intro child member
    have slot : child ∈ tree.arena.children parent := Arena.child_of_kind found member
    have reached := constructed.reached known (Relation.ReflTransGen.tail below slot)
    exact Option.isSome_iff_exists.mp ((constructed.recorded child).mpr reached)
  rcases spanned left first with ⟨before, leftSpan⟩
  rcases spanned right second with ⟨after, rightSpan⟩
  exact ⟨before, after, leftSpan, rightSpan, precedes.2 before after leftSpan rightSpan⟩

end Constructed

end SourceTree

end ModuleLang
