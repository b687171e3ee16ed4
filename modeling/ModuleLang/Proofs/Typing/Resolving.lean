import ModuleLang.Proofs.Tree.Scope
import ModuleLang.Proofs.Typing.Naming

/-!
Expressions of the completed tree. In a slot for an expression there are the nodes
that were parsed there and casts that were put around them, so no variable is
declared in it, and its names are those of the text.
-/

namespace ModuleLang

/-- What a slot inside an expression is for. -/
def Category.isOperand : Category → Bool
  | type | expression => true
  | _ => false

namespace NodeKind

variable {slot : Type}

theorem operand_slots {kind : NodeKind slot} {category : Category}
    (operand : category.isOperand = true) (admits : category.admits kind = true) :
    ∀ held ∈ kind.slots, held.1.isOperand = true := by
  intro held member
  cases category with
  | type =>
      cases kind with
      | typeRef => cases member
      | _ => cases admits
  | expression =>
      cases kind with
      | literal | member => cases member
      | call | construct =>
          simp only [slots, List.mem_cons, List.mem_map] at member
          grind [Category.isOperand]
      | newArray | cast | memberAccess | indexAccess | binary | unary =>
          simp only [slots, List.mem_cons, List.not_mem_nil, or_false] at member
          grind [Category.isOperand]
      | _ => cases admits
  | _ => cases operand

theorem not_binding_of_operand {kind : NodeKind slot} {category : Category}
    (operand : category.isOperand = true) (admits : category.admits kind = true) :
    kind.isBinding = false := by
  cases category with
  | type | expression => cases kind <;> first | rfl | cases admits
  | _ => cases operand

theorem Alike.binding {other : Type} {stands : Category → slot → other → Prop}
    {kind : NodeKind slot} {after : NodeKind other} (alike : kind.Alike stands after) :
    after.isBinding = kind.isBinding := by
  cases alike <;> rfl

end NodeKind

namespace SourceTree

variable {limit : Position} {origin tree : SourceTree} {root node now id : NodeId}

/-- What stands below a parsed expression once types are inferred. -/
inductive Stems (origin tree : SourceTree) (root : NodeId) : NodeId → Prop
  | parsed {id category} (below : origin.arena.Reachable root id)
      (operand : category.isOperand = true) (admitted : origin.arena.Admitted category id) :
      Stems origin tree root id
  | cast {id target inner source} (found : tree.arena.kind? id = some (.cast target inner source))
      (new : origin.arena.size ≤ id.index) (below : origin.arena.Reachable root inner)
      (admitted : origin.arena.Admitted .expression inner) : Stems origin tree root id
  | written {id name ranks} (found : tree.arena.kind? id = some (.typeRef name ranks)) :
      Stems origin tree root id

/-- A parsed node is still there, with what stands in its slots now. -/
theorem image_of_parsed {kind : NodeKind NodeId}
    (traced : ∀ {id kind}, tree.arena.kind? id = some kind → Traced origin tree id kind)
    (grown : origin.arena.size ≤ tree.arena.size) (known : origin.arena.kind? id = some kind) :
    ∃ image, tree.arena.kind? id = some image ∧ kind.Alike (Stands origin tree) image := by
  obtain ⟨image, found⟩ := Arena.kind_exists (Nat.lt_of_lt_of_le (Arena.kind_bound known) grown)
  refine ⟨image, found, ?_⟩
  cases traced found with
  | parsed was alike _ =>
      cases known.symm.trans was
      exact alike
  | added new _ => exact absurd (Arena.kind_bound known) (Nat.not_lt.mpr new)

/-- What stands in a slot of an expression. -/
theorem stems_of_stands {category : Category} (operand : category.isOperand = true)
    (below : origin.arena.Reachable root node) (admitted : origin.arena.Admitted category node)
    (stands : Stands origin tree category node now) : Stems origin tree root now := by
  obtain rfl | ⟨new, replaces⟩ := stands
  · exact .parsed below operand admitted
  · cases replaces with
    | cast found => exact .cast found new below admitted
    | default | definition => cases operand

variable (constructed : origin.Constructed limit)
  (traced : ∀ {id kind}, tree.arena.kind? id = some kind → Traced origin tree id kind)

include constructed traced

theorem Stems.child {child : NodeId} (stems : Stems origin tree root id)
    (slot : child ∈ tree.arena.children id) : Stems origin tree root child := by
  obtain ⟨kind, found, member⟩ := Arena.kind_of_child slot
  cases stems with
  | parsed below operand admitted =>
      obtain ⟨before, known, admits⟩ := admitted
      cases traced found with
      | parsed was alike _ =>
          cases known.symm.trans was
          obtain ⟨category, held⟩ := NodeKind.child_has_slot member
          obtain ⟨parsed, place, stands⟩ := alike.slot_origin held
          refine stems_of_stands (NodeKind.operand_slots operand admits _ place) ?_
            (constructed.admitted known _ place) stands
          refine Relation.ReflTransGen.tail below ?_
          exact Arena.child_of_kind known (NodeKind.slot_is_child place)
      | added new _ => exact absurd (Arena.kind_bound known) (Nat.not_lt.mpr new)
  | cast held new below admitted =>
      cases found.symm.trans held
      cases traced found with
      | parsed was _ _ => exact absurd (Arena.kind_bound was) (Nat.not_lt.mpr new)
      | added _ form =>
          cases form with
          | cast spells =>
              rw [NodeKind.children, List.mem_cons, List.mem_singleton] at member
              obtain rfl | rfl := member
              · exact .written spells.1
              · exact .parsed below rfl admitted
  | written held =>
      cases found.symm.trans held
      cases member

theorem Stems.below (stems : Stems origin tree root now) (below : tree.arena.Reachable now id) :
    Stems origin tree root id := by
  induction below with
  | refl => exact stems
  | tail _ slot ih => exact ih.child constructed traced slot

omit constructed traced in
/-- All of it is there. -/
theorem Stems.kind (grown : origin.arena.size ≤ tree.arena.size)
    (stems : Stems origin tree root id) : ∃ kind, tree.arena.kind? id = some kind := by
  cases stems with
  | parsed below operand admitted =>
      obtain ⟨before, known, -⟩ := admitted
      exact Arena.kind_exists (Nat.lt_of_lt_of_le (Arena.kind_bound known) grown)
  | cast held => exact ⟨_, held⟩
  | written held => exact ⟨_, held⟩

omit constructed in
theorem Stems.quiet {kind : NodeKind NodeId} (stems : Stems origin tree root id)
    (found : tree.arena.kind? id = some kind) : kind.isBinding = false := by
  cases stems with
  | parsed below operand admitted =>
      obtain ⟨before, known, admits⟩ := admitted
      cases traced found with
      | parsed was alike _ =>
          cases known.symm.trans was
          rw [alike.binding]
          exact NodeKind.not_binding_of_operand operand admits
      | added new _ => exact absurd (Arena.kind_bound known) (Nat.not_lt.mpr new)
  | cast held => cases found.symm.trans held; rfl
  | written held => cases found.symm.trans held; rfl

omit constructed in
/-- A name there was parsed there. -/
theorem Stems.name {name : String} (stems : Stems origin tree root id)
    (found : tree.arena.kind? id = some (.member name)) :
    origin.arena.Reachable root id ∧ origin.arena.kind? id = some (.member name) := by
  cases stems with
  | parsed below operand admitted =>
      obtain ⟨before, known, admits⟩ := admitted
      cases traced found with
      | parsed was alike _ =>
          cases alike
          exact ⟨below, was⟩
      | added new _ => exact absurd (Arena.kind_bound known) (Nat.not_lt.mpr new)
  | cast held => cases found.symm.trans held
  | written held => cases found.symm.trans held

/-- An expression whose names have their types resolves in the completed tree. -/
theorem resolves_operand {visible : Visible} {category : Category}
    (grown : origin.arena.size ≤ tree.arena.size) (operand : category.isOperand = true)
    (admitted : origin.arena.Admitted category node)
    (stands : Stands origin tree category node now)
    (named : ∀ id name, origin.arena.Reachable node id →
      origin.arena.kind? id = some (.member name) → ∃ binder,
        visible.lookup name = some binder ∧ tree.arena.type? id = tree.arena.type? binder) :
    tree.arena.Resolves visible now := by
  intro id below
  have stems := (stems_of_stands operand .refl admitted stands).below constructed traced below
  obtain ⟨kind, found⟩ := stems.kind grown
  refine ⟨kind, found, stems.quiet traced found, ?_⟩
  rintro name rfl
  obtain ⟨parsed, known⟩ := stems.name traced found
  exact named id name parsed known

omit constructed traced in
/-- A written type declares and names nothing. -/
theorem resolves_written {visible : Visible} {name : String} {ranks : List Nat}
    (found : tree.arena.kind? node = some (.typeRef name ranks)) :
    tree.arena.Resolves visible node :=
  Arena.resolves_of_children found rfl nofun fun _ none => by cases none

end SourceTree

end ModuleLang
