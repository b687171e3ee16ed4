import ModuleLang.Proofs.Tree.Construction
import ModuleLang.Proofs.Typing.Rules
import ModuleLang.Typing.Inference.Basic

/-!
What inference does to a parsed tree. A node that was looked at keeps its kind,
except that a new node may stand in a slot for the one that was parsed there. A
region is a set of nodes; it is settled when its nodes refer to each other only,
were only changed in this way, cover what is in their slots and obey their typing
rules unless an error was reported. Work on one region leaves all others settled.
-/

namespace ModuleLang

namespace Frame

/-- Nodes that declare the names of a frame. -/
def nodes (frame : Frame) : List NodeId :=
  frame.visible.map (fun entry => entry.2.node) ++ frame.declared.map Prod.snd ++
    frame.nested.map Prod.snd

end Frame

namespace Scopes

/-- Nodes that declare the names of all open frames. -/
def nodes (scopes : Scopes) : List NodeId := scopes.top.nodes ++ scopes.outer.flatMap Frame.nodes

theorem node_of_lookup {scopes : Scopes} {name : String} {binding : Binding}
    (found : scopes.lookup name = some binding) : binding.node ∈ scopes.nodes := by
  obtain ⟨before, after, same, -⟩ := List.lookup_eq_some_iff.mp found
  simp [nodes, Frame.nodes, same]

theorem node_of_nested {scopes : Scopes} {name : String} {node : NodeId}
    (found : scopes.nested name = some node) : node ∈ scopes.nodes := by
  obtain ⟨before, after, same, -⟩ := List.lookup_eq_some_iff.mp found
  simp [nodes, Frame.nodes, same]

theorem nodes_declare {scopes : Scopes} {name : String} {binding : Binding} {id : NodeId}
    (inside : id ∈ (scopes.declare name binding).nodes) :
    id = binding.node ∨ id ∈ scopes.nodes := by
  simp only [nodes, declare, Frame.declare, Frame.nodes, List.map_cons, List.mem_append,
    List.mem_cons] at *
  tauto

theorem nodes_push {scopes : Scopes} {id : NodeId} (inside : id ∈ scopes.push.nodes) :
    id ∈ scopes.nodes := by
  simp only [nodes, push, Frame.inside, Frame.empty, Frame.nodes, List.map_nil, List.append_nil,
    List.flatMap_cons, List.mem_append] at *
  tauto

theorem nodes_pop {scopes : Scopes} {id : NodeId} (inside : id ∈ scopes.pop.nodes) :
    id ∈ scopes.nodes := by
  obtain ⟨top, outer⟩ := scopes
  cases outer with
  | nil => exact inside
  | cons parent outer =>
      simp only [nodes, pop, Frame.absorb, Frame.nodes, List.map_append, List.flatMap_cons,
        List.mem_append] at *
      tauto

end Scopes

namespace InferenceState

abbrev size (state : InferenceState) : Nat := state.tree.arena.size

abbrev kind? (state : InferenceState) (id : NodeId) : Option (NodeKind NodeId) :=
  state.tree.arena.kind? id

abbrev type? (state : InferenceState) (id : NodeId) : Option Ty := state.tree.arena.type? id

abbrev span? (state : InferenceState) (id : NodeId) : Option Span := state.tree.spans.span? id

/-- No error was reported so far. -/
def Clean (state : InferenceState) : Prop := Diagnostic.hasErrors state.diagnostics = false

end InferenceState

/-- Whether a node is a value that a variable starts with. -/
def NodeKind.isDefault {slot : Type} : NodeKind slot → Bool
  | literal _ => true
  | construct _ [] => true
  | _ => false

/-- A node is the written form of a type. -/
def Arena.Spells (arena : Arena) (type : Ty) (id : NodeId) : Prop :=
  arena.kind? id = some (.typeRef type.layers.1.text type.layers.2) ∧ arena.type? id = some type

theorem Arena.spells_of_node {arena other : Arena} {type : Ty} {id : NodeId}
    (same : other.node? id = arena.node? id) (spells : arena.Spells type id) :
    other.Spells type id :=
  ⟨(kind_of_node same).trans spells.1, (type_of_node same).trans spells.2⟩

namespace SourceTree

variable (origin tree : SourceTree)

/-- A new node replaces one that was parsed. -/
inductive Replaces : Category → NodeId → NodeId → Prop
  | cast {target inner node source} (found : tree.arena.kind? node = some (.cast target inner source)) :
      Replaces .expression inner node
  | default {definition node value}
      (found : tree.arena.kind? node = some (.assign .assign definition value)) :
      Replaces .statement definition node
  | definition {member node name type} (was : origin.arena.kind? member = some (.member name))
      (found : tree.arena.kind? node = some (.definition type name)) :
      Replaces .target member node

/-- What stands in a slot now, for the node that was parsed there. -/
def Stands (category : Category) (parsed now : NodeId) : Prop :=
  now = parsed ∨ (origin.arena.size ≤ now.index ∧ Replaces origin tree category parsed now)

/-- The nodes that inference adds: types, defaults of variables, casts, and what
makes a definition of a name or of a definition an assignment. -/
inductive Added (id : NodeId) : NodeKind NodeId → Prop
  | typeRef (name ranks) : Added id (.typeRef name ranks)
  | literal (value) : Added id (.literal value)
  | construct {written type} (spells : tree.arena.Spells type written) :
      Added id (.construct written [])
  | cast {target inner source goal} (spells : tree.arena.Spells goal target)
      (old : inner.index < origin.arena.size) (from' : tree.arena.type? inner = some source)
      (to' : tree.arena.type? id = some goal) (widens : source.widensTo goal = true)
      (place : tree.spans.span? id = tree.spans.span? inner) :
      Added id (.cast target inner (some source))
  | definition {written name}
      (spells : ∀ node ∈ written, ∃ type, tree.arena.Spells type node) :
      Added id (.definition written name)
  | assign {definition value kind} (old : definition.index < origin.arena.size)
      (was : ∃ type name, origin.arena.kind? definition = some (.definition type name))
      (new : origin.arena.size ≤ value.index) (found : tree.arena.kind? value = some kind)
      (default : kind.isDefault = true)
      (place : tree.spans.span? id = tree.spans.span? definition) :
      Added id (.assign .assign definition value)

/-- What stands in a slot of an added node was added right before it, or was parsed and
is no type. -/
def Follows (id : NodeId) (slot : Category × NodeId) : Prop :=
  (origin.arena.size ≤ slot.2.index ∧ slot.2.index + 1 = id.index) ∨
    (slot.2.index < origin.arena.size ∧ slot.1 ≠ .type)

/-- A node covers the nodes in its slots, and what was added for an added node comes
right before it. -/
structure Joined (id : NodeId) (kind : NodeKind NodeId) : Prop where
  covers : ∀ child ∈ kind.children, tree.Within child id
  follows : origin.arena.size ≤ id.index → ∀ slot ∈ kind.slots, Follows origin id slot

/-- How a node came to be what it is: it was parsed, with the same kind up to
what stands in its slots, or it was added. At most one operand was widened. -/
inductive Traced (id : NodeId) : NodeKind NodeId → Prop
  | parsed {before after} (found : origin.arena.kind? id = some before)
      (alike : before.Alike (Stands origin tree) after)
      (single : ∀ operator left right, after = .binary operator left right →
        left.index < origin.arena.size ∨ right.index < origin.arena.size) : Traced id after
  | added {kind} (new : origin.arena.size ≤ id.index) (form : Added origin tree id kind) :
      Traced id kind

variable {origin tree}

/-- A parsed node that was not changed. -/
theorem traced_parsed {id : NodeId} {kind : NodeKind NodeId} (forest : origin.arena.Forest)
    (found : origin.arena.kind? id = some kind) : Traced origin tree id kind := by
  have stands : ∀ category child, Stands origin tree category child child := fun _ _ => Or.inl rfl
  refine .parsed found (.refl stands kind) ?_
  rintro operator left right rfl
  have below : left.index < id.index :=
    forest.below (by rw [Arena.children_of_kind found]; simp [NodeKind.children])
  exact Or.inl (Nat.lt_trans below (Arena.kind_bound found))

section Joins

variable {id : NodeId} {kind : NodeKind NodeId}

theorem within_of_same_span {inner outer : NodeId}
    (same : tree.spans.span? inner = tree.spans.span? outer) : tree.Within inner outer := by
  intro first second left right
  rw [left, right, Option.some.injEq] at same
  rw [same]
  exact ⟨Position.le_refl _, Position.le_refl _⟩

/-- A parsed node whose slots have the spans of what was parsed there. -/
theorem joined_parsed {limit : Position} (constructed : origin.Constructed limit)
    (old : id.index < origin.arena.size)
    (place : tree.spans.span? id = origin.spans.span? id)
    (slots : ∀ child ∈ kind.children, ∃ parsed ∈ origin.arena.children id,
      tree.spans.span? child = origin.spans.span? parsed) : Joined origin tree id kind where
  covers := by
    intro child member first second left right
    rcases slots child member with ⟨parsed, inside, same⟩
    rw [same] at left
    rw [place] at right
    exact constructed.covered inside first second left right
  follows new := absurd old (Nat.not_lt.mpr new)

/-- An added node has the spans of its slots. -/
theorem joined_added (each : ∀ slot ∈ kind.slots,
    tree.spans.span? slot.2 = tree.spans.span? id ∧ Follows origin id slot) :
    Joined origin tree id kind where
  covers := by
    intro child member
    rcases NodeKind.child_has_slot member with ⟨category, slot⟩
    exact within_of_same_span (each _ slot).1
  follows _ slot member := (each slot member).2

theorem joined_leaf (leaf : kind.slots = []) : Joined origin tree id kind :=
  joined_added (by simp [leaf])

theorem joined_of_same {other : SourceTree} (place : other.spans.span? id = tree.spans.span? id)
    (slots : ∀ child ∈ kind.children, other.spans.span? child = tree.spans.span? child)
    (joined : Joined origin tree id kind) : Joined origin other id kind where
  covers child member first second left right :=
    joined.covers child member first second (by rw [← slots child member, left])
      (by rw [← place, right])
  follows := joined.follows

end Joins

section Places

variable {parsed now : NodeId}

/-- A type stays where it was written. -/
theorem same_of_stands_type (stands : Stands origin tree .type parsed now) : now = parsed := by
  obtain same | ⟨-, replaces⟩ := stands
  · exact same
  · cases replaces

/-- A body stays in its place. -/
theorem same_of_stands_body (stands : Stands origin tree .body parsed now) : now = parsed := by
  obtain same | ⟨-, replaces⟩ := stands
  · exact same
  · cases replaces

/-- What stands left of an assignment is what was parsed there, unless that is a
name. -/
theorem same_of_stands_side {operator : AssignOperator} {kind : NodeKind NodeId}
    (stands : Stands origin tree operator.side parsed now)
    (known : origin.arena.kind? parsed = some kind) (other : ∀ name, kind ≠ .member name) :
    now = parsed := by
  obtain same | ⟨-, replaces⟩ := stands
  · exact same
  · cases operator with
    | assign =>
        cases replaces with
        | definition was => exact absurd (Option.some.inj (known.symm.trans was)) (other _)
    | _ => cases replaces

end Places

section Same

variable {other : SourceTree} {id : NodeId} {kind : NodeKind NodeId}

theorem stands_of_same {category : Category} {parsed now : NodeId}
    (same : other.arena.kind? now = tree.arena.kind? now) (stands : Stands origin tree category parsed now) :
    Stands origin other category parsed now := by
  obtain equal | ⟨new, replaces⟩ := stands
  · exact Or.inl equal
  · refine Or.inr ⟨new, ?_⟩
    cases replaces with
    | cast found => exact .cast (same.trans found)
    | default found => exact .default (same.trans found)
    | definition was found => exact .definition was (same.trans found)

/-- The trace of a node depends on the node and its slots only. -/
theorem traced_of_same (own : other.arena.node? id = tree.arena.node? id)
    (place : other.spans.span? id = tree.spans.span? id)
    (slots : ∀ child ∈ kind.children, other.arena.node? child = tree.arena.node? child ∧
      other.spans.span? child = tree.spans.span? child)
    (traced : Traced origin tree id kind) : Traced origin other id kind := by
  cases traced with
  | parsed found alike single =>
      refine .parsed found (alike.imp fun category first second inside stands => ?_) single
      have same := (slots second (NodeKind.slot_is_child inside)).1
      exact stands_of_same (Arena.kind_of_node same) stands
  | added new form =>
      refine .added new ?_
      cases form with
      | typeRef name ranks => exact .typeRef name ranks
      | literal value => exact .literal value
      | @construct written type spells =>
          have same := (slots written (by simp [NodeKind.children])).1
          exact .construct (Arena.spells_of_node same spells)
      | definition spells =>
          refine .definition fun node member => ?_
          obtain ⟨type, written⟩ := spells node member
          have same := (slots node (by simpa [NodeKind.children] using member)).1
          exact ⟨type, Arena.spells_of_node same written⟩
      | @assign definition value found old was new kind default equal =>
          have same := (slots value (by simp [NodeKind.children])).1
          have span := (slots definition (by simp [NodeKind.children])).2
          refine .assign old was new ((Arena.kind_of_node same).trans kind) default ?_
          rw [place, span]
          exact equal
      | @cast target inner source goal spells old from' to' widens equal =>
          obtain ⟨node, span⟩ := slots inner (by simp [NodeKind.children])
          have same := (slots target (by simp [NodeKind.children])).1
          refine .cast (Arena.spells_of_node same spells) old ((Arena.type_of_node node).trans from')
            ((Arena.type_of_node own).trans to') widens ?_
          rw [place, span]
          exact equal

end Same

end SourceTree

end ModuleLang
