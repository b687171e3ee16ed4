import ModuleLang.Proofs.Parsing.Declaration
import ModuleLang.Proofs.Tree.SyntaxTree
import ModuleLang.Proofs.Typing.Module

/-!
Inference only adds to a tree. Contracting the nodes that it added gives back the
tree that was parsed, and whatever it added to an operand is a widening.
-/

namespace ModuleLang

/-- Leaves out a node that was added after the first `size` ones: a cast in favour
of its operand, an assignment in favour of the definition to its left, and the type
of a definition that was a name. -/
def SyntaxTree.contract (size : Nat) (id : NodeId) (kind : NodeKind SyntaxTree) : SyntaxTree :=
  if id.index < size then .node kind.unsourced
  else
    match kind with
    | .cast _ inner _ => inner
    | .assign _ target _ => target
    | .definition _ name => .node (.member name)
    | other => .node other

/-- The tree below a node without what was added after the first `size` nodes. -/
def Arena.contracted? (arena : Arena) (size : Nat) (root : NodeId) : Option SyntaxTree :=
  arena.fold? (fun id kind _ => SyntaxTree.contract size id kind) root

namespace SyntaxTree

variable {size : Nat} {id : NodeId}

theorem contract_old (old : id.index < size) (kind : NodeKind SyntaxTree) :
    contract size id kind = .node kind.unsourced :=
  if_pos old

theorem contract_cast (new : size ≤ id.index) (target inner : SyntaxTree) (source : Option Ty) :
    contract size id (.cast target inner source) = inner :=
  if_neg (Nat.not_lt_of_le new)

theorem contract_assign (new : size ≤ id.index) (operator : AssignOperator)
    (target value : SyntaxTree) : contract size id (.assign operator target value) = target :=
  if_neg (Nat.not_lt_of_le new)

theorem contract_definition (new : size ≤ id.index) (type : Option SyntaxTree) (name : String) :
    contract size id (.definition type name) = .node (.member name) :=
  if_neg (Nat.not_lt_of_le new)

end SyntaxTree

namespace Arena

variable {value : Type} {step : NodeId → NodeKind value → Option Ty → value} {arena : Arena}

/-- A node without children has a value with whatever depth. -/
theorem fold_within_leaf [Inhabited value] {depth : Nat} {id : NodeId} {kind : NodeKind NodeId}
    (found : arena.kind? id = some kind) (leaf : kind.children = []) :
    ∃ result, arena.foldWithin step (depth + 1) id = some result := by
  have each : ∀ child ∈ kind.children, arena.foldWithin step depth child = some default := by
    rw [leaf]
    exact nofun
  exact ⟨_, fold_within_node found each⟩

/-- Values of some nodes, as one function. -/
theorem fold_within_values [Inhabited value] {depth : Nat} {nodes : List NodeId}
    (each : ∀ node ∈ nodes, ∃ result, arena.foldWithin step depth node = some result) :
    ∃ values : NodeId → value, ∀ node ∈ nodes,
      arena.foldWithin step depth node = some (values node) := by
  choose! values held using each
  exact ⟨values, held⟩

end Arena

namespace SourceTree

variable {limit : Position} {origin tree : SourceTree}

/-- The tree that was parsed below a node, computed within some depth. -/
abbrev parsedWithin (origin : SourceTree) (depth : Nat) (id : NodeId) : Option SyntaxTree :=
  origin.arena.foldWithin (fun _ kind _ => .node kind) depth id

/-- The tree that a later tree is contracted to. -/
abbrev contractedWithin (origin tree : SourceTree) (depth : Nat) (id : NodeId) :
    Option SyntaxTree :=
  tree.arena.foldWithin (fun id kind _ => SyntaxTree.contract origin.arena.size id kind) depth id

/-- An added node is contracted to the tree of the parsed one in its place. Three
nodes are on the way at most: an assignment, its default and the type of this. -/
theorem Replaces.contracted {category : Category} {depth depth' : Nat} {parsed now : NodeId}
    {result : SyntaxTree} (replaces : Replaces origin tree category parsed now)
    (new : origin.arena.size ≤ now.index)
    (traced : ∀ {id kind}, tree.arena.kind? id = some kind → Traced origin tree id kind)
    (was : origin.parsedWithin depth' parsed = some result)
    (same : contractedWithin origin tree (depth + 2) parsed = some result) :
    contractedWithin origin tree (depth + 3) now = some result := by
  have added : ∀ {id kind}, origin.arena.size ≤ id.index → tree.arena.kind? id = some kind →
      Added origin tree id kind := by
    intro id kind new found
    cases traced found with
    | parsed before _ _ => exact absurd (Arena.kind_bound before) (Nat.not_lt_of_le new)
    | added _ form => exact form
  have spelled : ∀ {type id}, tree.arena.Spells type id →
      ∃ result, contractedWithin origin tree (depth + 1) id = some result :=
    fun spells => Arena.fold_within_leaf spells.1 rfl
  have deeper : ∀ {id}, (∃ result, contractedWithin origin tree (depth + 1) id = some result) →
      ∃ result, contractedWithin origin tree (depth + 2) id = some result := by
    rintro id ⟨result, found⟩
    exact ⟨result, Arena.fold_within_deeper found⟩
  cases replaces with
  | @cast target inner node source found =>
      cases added new found with
      | cast spells =>
          obtain ⟨values, held⟩ : ∃ values : NodeId → SyntaxTree, ∀ node ∈ [target, parsed],
              contractedWithin origin tree (depth + 2) node = some (values node) :=
            Arena.fold_within_values (by simpa using ⟨deeper (spelled spells), result, same⟩)
          have known : result = values parsed :=
            Option.some.inj (same.symm.trans (held parsed (by simp)))
          rw [contractedWithin, Arena.fold_within_node found held, NodeKind.map,
            SyntaxTree.contract_cast new, known]
  | @default definition node value found =>
      cases added new found with
      | @assign _ _ kind _ _ late isValue default =>
          have given : ∃ result, contractedWithin origin tree (depth + 2) value = some result := by
            cases added late isValue with
            | literal => exact deeper (Arena.fold_within_leaf isValue rfl)
            | @construct written type spells =>
                obtain ⟨values, held⟩ : ∃ values : NodeId → SyntaxTree, ∀ node ∈ [written],
                    contractedWithin origin tree (depth + 1) node = some (values node) :=
                  Arena.fold_within_values (by simpa using spelled spells)
                exact ⟨_, Arena.fold_within_node isValue held⟩
            | typeRef | cast | definition | assign => cases default
          obtain ⟨values, held⟩ : ∃ values : NodeId → SyntaxTree, ∀ node ∈ [parsed, value],
              contractedWithin origin tree (depth + 2) node = some (values node) :=
            Arena.fold_within_values (by simpa using ⟨⟨result, same⟩, given⟩)
          have known : result = values parsed :=
            Option.some.inj (same.symm.trans (held parsed (by simp)))
          rw [contractedWithin, Arena.fold_within_node found held, NodeKind.map,
            SyntaxTree.contract_assign new, known]
  | @definition member node name type member found =>
      cases added new found with
      | definition spells =>
          obtain ⟨values, held⟩ : ∃ values : NodeId → SyntaxTree, ∀ node ∈ type.toList,
              contractedWithin origin tree (depth + 2) node = some (values node) := by
            refine Arena.fold_within_values fun node inside => ?_
            obtain ⟨type, written⟩ := spells node (by simpa using inside)
            exact deeper (spelled written)
          rw [contractedWithin, Arena.fold_within_node found held, NodeKind.map,
            SyntaxTree.contract_definition new]
          cases depth' with
          | zero => cases was
          | succ less =>
              have none : ∀ child ∈ (NodeKind.member name : NodeKind NodeId).children,
                  origin.parsedWithin less child = some (.node .breakLoop) :=
                List.forall_mem_nil _
              rw [parsedWithin, Arena.fold_within_node member none] at was
              exact was

/-- A parsed node is contracted to the tree that was parsed below it. -/
theorem contracted_within (forest : origin.arena.Forest)
    (unsourced : ∀ {id kind}, origin.arena.kind? id = some kind → kind.unsourced = kind)
    (size : origin.arena.size ≤ tree.arena.size)
    (traced : ∀ {id kind}, tree.arena.kind? id = some kind → Traced origin tree id kind)
    {bound : Nat} {id : NodeId} (below : id.index < bound) (old : id.index < origin.arena.size) :
    ∃ result, origin.parsedWithin bound id = some result ∧
      contractedWithin origin tree (4 * bound) id = some result := by
  induction bound generalizing id with
  | zero => omega
  | succ bound ih =>
      obtain ⟨after, found⟩ := Arena.kind_exists (Nat.lt_of_lt_of_le old size)
      cases traced found with
      | added new _ => omega
      | @parsed before _ was alike _ =>
          have younger : ∀ child ∈ before.children,
              child.index < bound ∧ child.index < origin.arena.size := by
            intro child inside
            have less := forest.below (by rwa [Arena.children_of_kind was])
            omega
          have known : ∀ child ∈ before.children, ∃ result,
              origin.parsedWithin bound child = some result ∧
              contractedWithin origin tree (4 * bound) child = some result :=
            fun child inside => ih (younger child inside).1 (younger child inside).2
          choose! values parsed contracted using known
          let values' := fun now => (contractedWithin origin tree (4 * bound + 3) now).getD default
          have standing : ∀ {category child now}, child ∈ before.children →
              Stands origin tree category child now →
              contractedWithin origin tree (4 * bound + 3) now = some (values child) := by
            rintro category child now inside (rfl | ⟨new, replaces⟩)
            · exact Arena.fold_within_mono (by omega) (contracted now inside)
            · exact replaces.contracted new traced (parsed child inside)
                (Arena.fold_within_mono (by omega) (contracted child inside))
          have each : ∀ now ∈ after.children,
              contractedWithin origin tree (4 * bound + 3) now = some (values' now) := by
            intro now inside
            obtain ⟨category, slot⟩ := NodeKind.child_has_slot inside
            obtain ⟨child, member, stands⟩ := alike.slot_origin slot
            have held := standing (NodeKind.slot_is_child member) stands
            simp only [values', held, Option.getD_some]
          have same : (after.map values').unsourced = before.unsourced.map values := by
            refine (alike.map_right values' fun category child now inside _ stands => ?_).eq_map
            have held := standing (NodeKind.slot_is_child inside) stands
            simp only [values', held, Option.getD_some]
          refine ⟨.node (before.map values), Arena.fold_within_node was parsed, ?_⟩
          rw [contractedWithin, Nat.mul_succ, Arena.fold_within_node found each,
            SyntaxTree.contract_old old, same, unsourced was]

/-- A tree completes the one that was parsed. Nodes that were added count from the
size of this. -/
structure Completes (origin tree : SourceTree) (root : NodeId) : Prop where
  /-- Without what was added it is the same tree. -/
  contracts : ∃ parsed, origin.arena.tree? root = some parsed ∧
    tree.arena.contracted? origin.arena.size root = some parsed
  /-- A parsed node stays as it is, apart from slots that hold an added node now and
  the sources of casts. -/
  keeps : ∀ {id before}, origin.arena.kind? id = some before → ∃ after,
    tree.arena.kind? id = some after ∧
    before.Alike (fun _ parsed now => now = parsed ∨ origin.arena.size ≤ now.index) after
  /-- An added cast widens its operand, and stands in its place. -/
  widens : ∀ {id target inner source}, origin.arena.size ≤ id.index →
    tree.arena.kind? id = some (.cast target inner source) → ∃ held goal,
      source = some held ∧ tree.arena.type? inner = some held ∧
      tree.arena.type? id = some goal ∧ tree.arena.Spells goal target ∧
      held.widensTo goal = true ∧ tree.spans.span? id = tree.spans.span? inner
  /-- At most one operand of an operator was added. -/
  single : ∀ {id operator left right}, tree.arena.kind? id = some (.binary operator left right) →
    left.index < origin.arena.size ∨ right.index < origin.arena.size

/-- A tree all of whose nodes are traced completes the one that they come from. -/
theorem completes_of_traced {root : NodeId} (constructed : origin.Constructed limit)
    (bound : root.index < origin.arena.size) (size : origin.arena.size ≤ tree.arena.size)
    (traced : ∀ {id kind}, tree.arena.kind? id = some kind → Traced origin tree id kind) :
    origin.Completes tree root where
  contracts := by
    obtain ⟨parsed, was, now⟩ := contracted_within constructed.forest constructed.unsourced size
      traced (Nat.lt_succ_self root.index) bound
    exact ⟨parsed, Arena.fold_of_fold_within was, Arena.fold_of_fold_within now⟩
  keeps := by
    intro id before found
    have old := Arena.kind_bound found
    obtain ⟨after, now⟩ := Arena.kind_exists (Nat.lt_of_lt_of_le old size)
    refine ⟨after, now, ?_⟩
    cases traced now with
    | added new _ => omega
    | parsed was alike _ =>
        obtain rfl := Option.some.inj (found.symm.trans was)
        exact alike.imp fun _ _ _ _ stands => stands.imp_right And.left
  widens := by
    intro id target inner source new found
    cases traced found with
    | parsed was _ _ => exact absurd (Arena.kind_bound was) (Nat.not_lt_of_le new)
    | added _ form =>
        cases form with
        | cast spells _ held goal widens place =>
            exact ⟨_, _, rfl, held, goal, spells, widens, place⟩
  single := by
    intro id operator left right found
    cases traced found with
    | parsed _ _ single => exact single operator left right rfl
    | added _ form => cases form

end SourceTree

namespace Inference.Inferred

variable {limit : Position} {origin : SourceTree} {host : Host} {root : NodeId}
  {modules imports functions : List NodeId} {final : InferenceState}

/-- Inference leaves no node behind that it cannot be told where it comes from. -/
theorem traced (constructed : origin.Constructed limit)
    (inferred : Inferred limit origin host root modules imports functions final) {id : NodeId}
    {kind : NodeKind NodeId} (found : final.kind? id = some kind) :
    SourceTree.Traced origin final.tree id kind := by
  obtain ⟨region, -, settled, new, old⟩ := inferred.settled
  by_cases inside : region id
  · obtain ⟨other, fine, -⟩ := settled id inside
    obtain rfl := Option.some.inj (found.symm.trans fine.found)
    exact fine.traced
  · have early : id.index < origin.arena.size := by
      by_contra late
      exact inside (new id (Nat.le_of_not_lt late) (Arena.kind_bound found))
    have same := Arena.kind_of_node (old id early inside)
    exact SourceTree.traced_parsed constructed.forest (same.symm.trans found)

end Inference.Inferred

namespace ParsedModule

/-- The types of every parsed module are inferred, which only adds to its tree. -/
theorem infer_types_completes (text fileName : String) (host : Host) :
    ∃ parsed diagnostics tree, ofText text fileName = .ok parsed ∧
      (SourceTree.inferTypes parsed.fileName host parsed.root).run parsed.tree =
        .ok diagnostics tree ∧
      parsed.tree.Completes tree parsed.root := by
  obtain ⟨parsed, ran, proper, -⟩ := of_text_proper text fileName
  obtain ⟨modules, imports, functions, found⟩ := proper.root
  obtain ⟨diagnostics, tree, inferred, final, state, rfl, -⟩ := yields_iff.mp
    (SourceTree.yields_infer_types proper.constructed found parsed.fileName host)
  refine ⟨parsed, diagnostics, final.tree, ran, inferred, ?_⟩
  exact SourceTree.completes_of_traced proper.constructed (Arena.kind_bound found) state.sound.size
    (state.traced proper.constructed)

end ParsedModule

end ModuleLang
