import ModuleLang.Proofs.Tree.Hierarchy
import ModuleLang.Proofs.Typing.Weaving
import ModuleLang.Proofs.Yields

/-!
Nodes that were grafted onto a parsed tree. A node that was added stands either for a
parsed node, in the slot where that was parsed, or below another added node that
was made right after it. So no node gets a second parent, and a parsed node can be
ranked by its number with room above it for the node that was put around it. Every slot
still holds a node that may stand there: the image of a parsed node is of its kind, a
cast stands for an expression and an assignment for a statement. Only left of an
assignment a definition may stand where none was parsed.
-/

namespace ModuleLang

namespace NodeKind

variable {slot other : Type}

/-- What stands in the slots of the image, in order. -/
theorem Alike.children_correspond {stands : Category → slot → other → Prop}
    {kind : NodeKind slot} {image : NodeKind other} (related : Alike stands kind image) :
    List.Forall₂ (fun held child => stands held.1 held.2 child) kind.slots image.children := by
  rw [← slots_are_children image, List.forall₂_map_right_iff]
  exact related.slots_correspond.imp fun _ _ held => held.2

/-- Only a plain assignment has a slot for a new name. -/
theorem assign_of_target_slot {kind : NodeKind slot} {place : slot}
    (member : (Category.target, place) ∈ kind.slots) :
    ∃ target value, kind = .assign .assign target value ∧ place = target := by
  cases kind with
  | assign operator target value =>
      cases operator with
      | assign =>
          refine ⟨target, value, rfl, ?_⟩
          simpa [slots, AssignOperator.side] using member
      | _ => simp [slots, AssignOperator.side] at member
  | _ => simp [slots] at member

end NodeKind

/-- In a list without repetitions every member has one partner. -/
theorem partner_unique {first second : Type} {members : List first} {partners : List second}
    (distinct : members.Nodup) {member : first} {one other : second}
    (left : (member, one) ∈ members.zip partners) (right : (member, other) ∈ members.zip partners) :
    one = other := by
  rcases List.getElem_of_mem left with ⟨position, bound, found⟩
  rcases List.getElem_of_mem right with ⟨again, bound', found'⟩
  rw [List.getElem_zip, Prod.mk.injEq] at found found'
  have same : position = again := by
    apply (List.Nodup.getElem_inj_iff distinct).mp
    rw [found.1, found'.1]
  subst same
  rw [← found.2, ← found'.2]

/-- Partners of different members are different if each tells its member. -/
theorem nodup_of_partners {first second : Type} {related : first → second → Prop}
    {members : List first} {partners : List second} (matched : List.Forall₂ related members partners)
    (distinct : members.Nodup)
    (tells : ∀ one ∈ members, ∀ other ∈ members, ∀ partner, related one partner →
      related other partner → one = other) : partners.Nodup := by
  induction matched with
  | nil => exact List.nodup_nil
  | @cons member partner members partners held rest ih =>
      rw [List.nodup_cons] at distinct ⊢
      refine ⟨fun repeated => ?_, ih distinct.2 fun one inside other also =>
        tells one (List.mem_cons_of_mem _ inside) other (List.mem_cons_of_mem _ also)⟩
      rcases partner_of_member rest repeated with ⟨other, inside, also⟩
      have same := tells member List.mem_cons_self other (List.mem_cons_of_mem _ inside) partner held
        also
      exact distinct.1 (same ▸ inside)

namespace SourceTree

/-- A tree that was parsed and then rewritten, from its root on. No definition was
put into two assignments. -/
structure Engrafted (limit : Position) (origin tree : SourceTree) (root : NodeId) : Prop where
  constructed : origin.Constructed limit
  rooted : root.index < origin.arena.size
  each : ∀ id, tree.arena.Reachable root id → ∃ kind, tree.arena.kind? id = some kind ∧
    Traced origin tree id kind ∧ Joined origin tree id kind
  spanned : ∀ id, tree.arena.Reachable root id → (tree.spans.span? id).isSome
  lone : ∀ first second definition, tree.arena.Reachable root first →
    tree.arena.Reachable root second → origin.arena.size ≤ definition.index →
    definition ∈ tree.arena.children first → definition ∈ tree.arena.children second →
    (∃ target value, origin.arena.kind? first = some (.assign .assign target value)) →
    (∃ target value, origin.arena.kind? second = some (.assign .assign target value)) →
    first = second

/-- What was added for a parsed node and stands in its slot. -/
def Wraps (tree : SourceTree) (wrapper inner : NodeId) : Prop :=
  (∃ target source, tree.arena.kind? wrapper = some (.cast target inner source)) ∨
    ∃ value, tree.arena.kind? wrapper = some (.assign .assign inner value)

/-- What stands in a slot is the node that was parsed there, or wraps it, or is a
definition that stands left of an assignment. -/
theorem cases_of_stands {origin tree : SourceTree} {category : Category} {place child : NodeId}
    (stands : Stands origin tree category place child) :
    child = place ∨ (origin.arena.size ≤ child.index ∧ (tree.Wraps child place ∨
      (category = .target ∧ ∃ type name,
        tree.arena.kind? child = some (.definition type name)))) := by
  rcases stands with same | ⟨new, replaces⟩
  · exact Or.inl same
  · refine Or.inr ⟨new, ?_⟩
    cases replaces with
    | cast found => exact Or.inl (Or.inl ⟨_, _, found⟩)
    | default found => exact Or.inl (Or.inr ⟨_, found⟩)
    | definition was found => exact Or.inr ⟨rfl, _, _, found⟩

/-- A node stands in the slot of `parent` where `place` was parsed. -/
structure Seats (origin tree : SourceTree) (parent place child : NodeId) : Prop where
  seated : ∃ before after category, origin.arena.kind? parent = some before ∧
    tree.arena.kind? parent = some after ∧
    ((category, place), child) ∈ before.slots.zip after.children ∧
    Stands origin tree category place child

section Seats

variable {limit : Position} {origin tree : SourceTree} {root parent other place child : NodeId}

theorem Seats.place_is_child (seats : Seats origin tree parent place child) :
    place ∈ origin.arena.children parent := by
  rcases seats.seated with ⟨before, after, category, known, -, slot, -⟩
  exact Arena.child_of_kind known (NodeKind.slot_is_child (List.of_mem_zip slot).1)

theorem Seats.place_old (forest : origin.arena.Forest)
    (seats : Seats origin tree parent place child) : place.index < origin.arena.size := by
  rcases Arena.kind_of_child seats.place_is_child with ⟨kind, known, -⟩
  exact Nat.lt_trans (forest.below seats.place_is_child) (Arena.kind_bound known)

theorem Seats.cases (seats : Seats origin tree parent place child) :
    child = place ∨ (origin.arena.size ≤ child.index ∧ (tree.Wraps child place ∨
      ((∃ type name, tree.arena.kind? child = some (.definition type name)) ∧
        ∃ target value, origin.arena.kind? parent = some (.assign .assign target value)))) := by
  rcases seats.seated with ⟨before, after, category, known, -, slot, stands⟩
  rcases cases_of_stands stands with same | ⟨new, wraps | ⟨rfl, definition⟩⟩
  · exact Or.inl same
  · exact Or.inr ⟨new, Or.inl wraps⟩
  · refine Or.inr ⟨new, Or.inr ⟨definition, ?_⟩⟩
    rcases NodeKind.assign_of_target_slot (List.of_mem_zip slot).1 with
      ⟨target, value, rfl, -⟩
    exact ⟨target, value, known⟩

theorem Seats.child_unique (forest : origin.arena.Forest) {child' : NodeId}
    (first : Seats origin tree parent place child) (second : Seats origin tree parent place child') :
    child = child' := by
  rcases first.seated with ⟨before, after, category, known, now, slot, -⟩
  rcases second.seated with ⟨before', after', category', known', now', slot', -⟩
  rw [known, Option.some.injEq] at known'
  rw [now, Option.some.injEq] at now'
  subst known' now'
  have distinct := forest.distinct_of_kind known
  have same := NodeKind.slot_category_unique distinct (List.of_mem_zip slot).1
    (List.of_mem_zip slot').1
  subst same
  rw [← NodeKind.slots_are_children] at distinct
  exact partner_unique distinct.of_map slot slot'

/-- A wrapper wraps one node, and is no definition. -/
theorem Wraps.unique {wrapper first second : NodeId} (left : tree.Wraps wrapper first)
    (right : tree.Wraps wrapper second) : first = second := by
  rcases left with ⟨_, _, left⟩ | ⟨_, left⟩
  · rcases right with ⟨_, _, right⟩ | ⟨_, right⟩
    · cases left.symm.trans right
      rfl
    · cases left.symm.trans right
  · rcases right with ⟨_, _, right⟩ | ⟨_, right⟩
    · cases left.symm.trans right
    · cases left.symm.trans right
      rfl

theorem Wraps.no_definition {wrapper inner : NodeId} {type : Option NodeId} {name : String}
    (wraps : tree.Wraps wrapper inner) :
    tree.arena.kind? wrapper ≠ some (.definition type name) := by
  intro definition
  rcases wraps with ⟨_, _, found⟩ | ⟨_, found⟩
  all_goals
    rw [found] at definition
    cases definition

end Seats

namespace Engrafted

variable {limit : Position} {origin tree : SourceTree} {root parent first second child : NodeId}
  (engrafted : Engrafted limit origin tree root)

include engrafted

/-- The slots of a parsed node hold what stands for the nodes parsed there. -/
theorem seats_of_child (above : tree.arena.Reachable root parent)
    (old : parent.index < origin.arena.size) (slot : child ∈ tree.arena.children parent) :
    ∃ place, Seats origin tree parent place child := by
  rcases engrafted.each parent above with ⟨after, found, traced, -⟩
  cases traced with
  | added new _ => exact absurd old (Nat.not_lt.mpr new)
  | @parsed before _ known alike single =>
      rw [Arena.children_of_kind found] at slot
      have matched := alike.children_correspond
      rcases List.getElem_of_mem slot with ⟨position, bound, same⟩
      have bound' : position < before.slots.length := by
        rw [matched.length_eq]
        exact bound
      have stands := List.Forall₂.get matched bound' bound
      rw [List.get_eq_getElem, List.get_eq_getElem, same] at stands
      refine ⟨before.slots[position].2, before, after, before.slots[position].1, known, found, ?_,
        stands⟩
      have zipped : position < (before.slots.zip after.children).length := by
        rw [List.length_zip]
        omega
      have member := List.getElem_mem zipped
      rw [List.getElem_zip, same] at member
      exact member

/-- What stands below an added node: what was made right before it and stands for
nothing else, or the parsed node that it wraps. -/
theorem below_added (above : tree.arena.Reachable root parent)
    (new : origin.arena.size ≤ parent.index) (slot : child ∈ tree.arena.children parent) :
    (child.index + 1 = parent.index ∧ origin.arena.size ≤ child.index ∧
      ∃ kind, tree.arena.kind? child = some kind ∧
        ((kind.isDefault = true ∧ ∃ inner, tree.Wraps parent inner) ∨
          ∃ name ranks, kind = .typeRef name ranks)) ∨
    (child.index < origin.arena.size ∧ tree.Wraps parent child) := by
  rcases engrafted.each parent above with ⟨kind, found, traced, joined⟩
  have follows := joined.follows new
  rw [Arena.children_of_kind found] at slot
  have typed : ∀ {type}, (Category.type, child) ∈ kind.slots → tree.arena.Spells type child →
      child.index + 1 = parent.index ∧ origin.arena.size ≤ child.index ∧
        ∃ kind, tree.arena.kind? child = some kind ∧
          ((kind.isDefault = true ∧ ∃ inner, tree.Wraps parent inner) ∨
            ∃ name ranks, kind = .typeRef name ranks) := by
    intro type member spells
    rcases follows _ member with ⟨later, next⟩ | ⟨-, other⟩
    · exact ⟨next, later, _, spells.1, Or.inr ⟨_, _, rfl⟩⟩
    · exact absurd rfl other
  cases traced with
  | parsed known _ _ => exact absurd (Arena.kind_bound known) (Nat.not_lt.mpr new)
  | added _ form =>
      cases form with
      | typeRef | literal => cases slot
      | @construct written type spells =>
          rcases List.mem_singleton.mp slot with rfl
          exact Or.inl (typed (by simp [NodeKind.slots]) spells)
      | @definition written name spells =>
          have held : child ∈ written := by simpa [NodeKind.children] using slot
          rcases spells child held with ⟨type, spelled⟩
          exact Or.inl (typed (by simpa [NodeKind.slots] using held) spelled)
      | @cast target inner source goal spells old _ _ _ _ =>
          rcases List.mem_pair.mp slot with rfl | rfl
          · exact Or.inl (typed (by simp [NodeKind.slots]) spells)
          · exact Or.inr ⟨old, Or.inl ⟨_, _, found⟩⟩
      | @assign definition value kind old was later held default place =>
          rcases List.mem_pair.mp slot with rfl | rfl
          · exact Or.inr ⟨old, Or.inr ⟨_, found⟩⟩
          · rcases follows (.expression, child) (by simp [NodeKind.slots]) with ⟨-, next⟩ | ⟨early, -⟩
            · exact Or.inl ⟨next, later, kind, held, Or.inl ⟨default, definition, Or.inr ⟨_, found⟩⟩⟩
            · exact absurd early (Nat.not_lt.mpr later)

omit engrafted in
/-- What was added right before another node wraps nothing and is no definition. -/
theorem plain_of_default {kind : NodeKind NodeId} {wraps : Prop}
    (found : tree.arena.kind? child = some kind)
    (plain : (kind.isDefault = true ∧ wraps) ∨ ∃ name ranks, kind = .typeRef name ranks) :
    (∀ inner, ¬ tree.Wraps child inner) ∧
      ¬ ∃ type name, tree.arena.kind? child = some (.definition type name) := by
  constructor
  · rintro inner (⟨target, source, wraps⟩ | ⟨value, wraps⟩)
    all_goals
      cases found.symm.trans wraps
      rcases plain with ⟨default, -⟩ | ⟨name, ranks, same⟩
      · cases default
      · cases same
  · rintro ⟨type, name, definition⟩
    cases found.symm.trans definition
    rcases plain with ⟨default, -⟩ | ⟨name, ranks, same⟩
    · cases default
    · cases same

/-- A node that wraps a parsed one stands in its slot. -/
theorem seats_of_wraps {wrapper inner : NodeId} (above : tree.arena.Reachable root wrapper)
    (new : origin.arena.size ≤ wrapper.index) (wraps : tree.Wraps wrapper inner) :
    ∃ parent, Seats origin tree parent inner wrapper := by
  rcases Relation.ReflTransGen.cases_tail above with same | ⟨parent, reach, slot⟩
  · rw [same] at new
    exact absurd engrafted.rooted (Nat.not_lt.mpr new)
  · rcases Nat.lt_or_ge parent.index origin.arena.size with old | added
    · rcases engrafted.seats_of_child reach old slot with ⟨place, seats⟩
      rcases seats.cases with rfl | ⟨-, also | ⟨⟨type, name, definition⟩, -⟩⟩
      · exact absurd (seats.place_old engrafted.constructed.forest) (Nat.not_lt.mpr new)
      · rw [wraps.unique also]
        exact ⟨parent, seats⟩
      · exact absurd definition wraps.no_definition
    · rcases engrafted.below_added reach added slot with ⟨-, -, kind, found, plain⟩ | ⟨early, -⟩
      · exact absurd wraps ((plain_of_default found plain).1 inner)
      · exact absurd early (Nat.not_lt.mpr new)

/-- A node below a parsed one is below no added one. -/
theorem not_below_both (left : tree.arena.Reachable root first)
    (right : tree.arena.Reachable root second) (old : first.index < origin.arena.size)
    (new : origin.arena.size ≤ second.index) (inFirst : child ∈ tree.arena.children first) :
    child ∉ tree.arena.children second := by
  intro inSecond
  have forest := engrafted.constructed.forest
  rcases engrafted.seats_of_child left old inFirst with ⟨place, seats⟩
  rcases engrafted.below_added right new inSecond with ⟨-, later, kind, found, plain⟩ | ⟨early, wraps⟩
  · have other := plain_of_default found plain
    rcases seats.cases with rfl | ⟨-, wraps | ⟨definition, -⟩⟩
    · exact absurd (seats.place_old forest) (Nat.not_lt.mpr later)
    · exact other.1 place wraps
    · exact other.2 definition
  · rcases seats.cases with rfl | ⟨later, -⟩
    · -- The slot of the child would hold the child and what wraps it.
      rcases engrafted.seats_of_wraps right new wraps with ⟨parent, wrapped⟩
      have same := forest.single wrapped.place_is_child seats.place_is_child
      subst same
      have equal := seats.child_unique forest wrapped
      rw [equal] at early
      exact Nat.not_lt.mpr new early
    · exact Nat.not_lt.mpr later early

theorem single_of_parsed (left : tree.arena.Reachable root first)
    (right : tree.arena.Reachable root second) (old : first.index < origin.arena.size)
    (old' : second.index < origin.arena.size) (inFirst : child ∈ tree.arena.children first)
    (inSecond : child ∈ tree.arena.children second) : first = second := by
  have forest := engrafted.constructed.forest
  rcases engrafted.seats_of_child left old inFirst with ⟨place, seats⟩
  rcases engrafted.seats_of_child right old' inSecond with ⟨place', seats'⟩
  have meet : place = place' → first = second := by
    rintro rfl
    exact forest.single seats.place_is_child seats'.place_is_child
  rcases seats.cases with same | ⟨new, stands⟩
  · rcases seats'.cases with same' | ⟨new, -⟩
    · exact meet (same.symm.trans same')
    · rw [same] at new
      exact absurd (seats.place_old forest) (Nat.not_lt.mpr new)
  · rcases seats'.cases with same' | ⟨-, stands'⟩
    · rw [same'] at new
      exact absurd (seats'.place_old forest) (Nat.not_lt.mpr new)
    · rcases stands with wraps | ⟨⟨type, name, definition⟩, assigns⟩
      · rcases stands' with wraps' | ⟨⟨type, name, definition⟩, -⟩
        · exact meet (wraps.unique wraps')
        · exact absurd definition wraps.no_definition
      · rcases stands' with wraps | ⟨-, assigns'⟩
        · exact absurd definition wraps.no_definition
        · exact engrafted.lone first second child left right new inFirst inSecond assigns assigns'

theorem single (left : tree.arena.Reachable root first) (right : tree.arena.Reachable root second)
    (inFirst : child ∈ tree.arena.children first) (inSecond : child ∈ tree.arena.children second) :
    first = second := by
  rcases Nat.lt_or_ge first.index origin.arena.size with old | new
  · rcases Nat.lt_or_ge second.index origin.arena.size with old' | new'
    · exact engrafted.single_of_parsed left right old old' inFirst inSecond
    · exact absurd inSecond (engrafted.not_below_both left right old new' inFirst)
  · rcases Nat.lt_or_ge second.index origin.arena.size with old' | new'
    · exact absurd inFirst (engrafted.not_below_both right left old' new inSecond)
    · rcases engrafted.below_added left new inFirst with ⟨next, later, -⟩ | ⟨early, wraps⟩
      · rcases engrafted.below_added right new' inSecond with ⟨next', -, -⟩ | ⟨early, -⟩
        · exact NodeId.ext (next.symm.trans next')
        · exact absurd early (Nat.not_lt.mpr later)
      · rcases engrafted.below_added right new' inSecond with ⟨-, later, -⟩ | ⟨-, wraps'⟩
        · exact absurd early (Nat.not_lt.mpr later)
        · rcases engrafted.seats_of_wraps left new wraps with ⟨parent, seats⟩
          rcases engrafted.seats_of_wraps right new' wraps' with ⟨parent', seats'⟩
          have same := engrafted.constructed.forest.single seats.place_is_child seats'.place_is_child
          subst same
          exact seats.child_unique engrafted.constructed.forest seats'

theorem distinct (above : tree.arena.Reachable root parent) :
    (tree.arena.children parent).Nodup := by
  rcases engrafted.each parent above with ⟨kind, found, traced, joined⟩
  rw [Arena.children_of_kind found]
  cases traced with
  | @parsed before _ known alike single =>
      have forest := engrafted.constructed.forest
      have apart := forest.distinct_of_kind known
      have places : ∀ {category place}, (category, place) ∈ before.slots →
          place.index < origin.arena.size := by
        intro category place member
        have slot : place ∈ origin.arena.children parent :=
          Arena.child_of_kind known (NodeKind.slot_is_child member)
        exact Nat.lt_trans (forest.below slot) (Arena.kind_bound known)
      have slots : before.slots.Nodup := by
        rw [← NodeKind.slots_are_children] at apart
        exact apart.of_map
      apply nodup_of_partners alike.children_correspond slots
      rintro ⟨category, place⟩ member ⟨category', place'⟩ member' child stands stands'
      have meet : place = place' → (category, place) = (category', place') := by
        rintro rfl
        rw [NodeKind.slot_category_unique apart member member']
      rcases cases_of_stands stands with same | ⟨new, standing⟩
      · rcases cases_of_stands stands' with same' | ⟨new, -⟩
        · exact meet (same.symm.trans same')
        · rw [same] at new
          exact absurd (places member) (Nat.not_lt.mpr new)
      · rcases cases_of_stands stands' with same' | ⟨-, standing'⟩
        · rw [same'] at new
          exact absurd (places member') (Nat.not_lt.mpr new)
        · rcases standing with wraps | ⟨rfl, type, name, definition⟩
          · rcases standing' with wraps' | ⟨-, type, name, definition⟩
            · exact meet (wraps.unique wraps')
            · exact absurd definition wraps.no_definition
          · rcases standing' with wraps | ⟨rfl, -⟩
            · exact absurd definition wraps.no_definition
            · rcases NodeKind.assign_of_target_slot member with ⟨target, value, rfl, rfl⟩
              rcases NodeKind.assign_of_target_slot member' with ⟨_, _, same, rfl⟩
              cases same
              rfl
  | added new form =>
      have follows := joined.follows new
      cases form with
      | typeRef | literal => exact List.nodup_nil
      | construct spells => exact List.nodup_singleton _
      | @definition written name spells => cases written <;> simp [NodeKind.children]
      | @cast target inner source goal spells old _ _ _ _ =>
          have apart : target ≠ inner := by
            rintro rfl
            rcases follows (.type, target) (by simp [NodeKind.slots]) with ⟨later, -⟩ | ⟨-, other⟩
            · exact Nat.not_lt.mpr later old
            · exact other rfl
          simpa [NodeKind.children] using apart
      | @assign definition value kind old _ later _ _ _ =>
          have apart : definition ≠ value := by
            rintro rfl
            exact Nat.not_lt.mpr later old
          simpa [NodeKind.children] using apart

end Engrafted

/-- The rank of an added node: behind the parsed node that it wraps. -/
def addedRank : NodeKind NodeId → Nat
  | .typeRef .. => 0
  | .cast _ inner _ => 2 * inner.index + 2
  | .assign _ definition _ => 2 * definition.index + 2
  | _ => 1

/-- A rank of nodes that falls on every way down. There is room between two parsed
nodes for what wraps the first. -/
def rank (origin tree : SourceTree) (id : NodeId) : Nat :=
  match tree.arena.kind? id with
  | some (.typeRef ..) => 0
  | some kind => if id.index < origin.arena.size then 2 * id.index + 1 else addedRank kind
  | none => 0

section Rank

variable {origin tree : SourceTree} {id : NodeId} {kind : NodeKind NodeId}

theorem rank_of_type {name : String} {ranks : List Nat}
    (found : tree.arena.kind? id = some (.typeRef name ranks)) : rank origin tree id = 0 := by
  unfold rank
  rw [found]

theorem rank_of_parsed (old : id.index < origin.arena.size)
    (found : tree.arena.kind? id = some kind) (other : ∀ name ranks, kind ≠ .typeRef name ranks) :
    rank origin tree id = 2 * id.index + 1 := by
  unfold rank
  rw [found]
  cases kind with
  | typeRef name ranks => exact absurd rfl (other name ranks)
  | _ => exact if_pos old

theorem rank_parsed_le (old : id.index < origin.arena.size) :
    rank origin tree id ≤ 2 * id.index + 1 := by
  unfold rank
  split
  · exact Nat.zero_le _
  · exact Nat.le_of_eq (if_pos old)
  · exact Nat.zero_le _

theorem rank_of_added (new : origin.arena.size ≤ id.index)
    (found : tree.arena.kind? id = some kind) : rank origin tree id = addedRank kind := by
  unfold rank
  rw [found]
  cases kind with
  | typeRef name ranks => rfl
  | _ => exact if_neg (Nat.not_lt.mpr new)

theorem rank_of_wraps {inner : NodeId} (new : origin.arena.size ≤ id.index)
    (wraps : tree.Wraps id inner) : rank origin tree id = 2 * inner.index + 2 := by
  rcases wraps with ⟨target, source, found⟩ | ⟨value, found⟩
  · exact rank_of_added new found
  · exact rank_of_added new found

theorem rank_of_default (new : origin.arena.size ≤ id.index)
    (found : tree.arena.kind? id = some kind) (default : kind.isDefault = true) :
    rank origin tree id = 1 := by
  cases kind with
  | literal | construct => exact rank_of_added new found
  | _ => cases default

end Rank

namespace Engrafted

variable {limit : Position} {origin tree : SourceTree} {root parent child : NodeId}

theorem rank_falls (engrafted : Engrafted limit origin tree root)
    (above : tree.arena.Reachable root parent) (slot : child ∈ tree.arena.children parent) :
    rank origin tree child < rank origin tree parent := by
  rcases engrafted.each parent above with ⟨kind, found, traced, -⟩
  have other : ∀ name ranks, kind ≠ .typeRef name ranks := by
    rintro name ranks rfl
    rw [Arena.children_of_kind found] at slot
    cases slot
  rcases Nat.lt_or_ge parent.index origin.arena.size with old | new
  · rw [rank_of_parsed old found other]
    rcases engrafted.seats_of_child above old slot with ⟨place, seats⟩
    have below := engrafted.constructed.forest.below seats.place_is_child
    rcases seats.cases with rfl | ⟨later, wraps | ⟨⟨type, name, definition⟩, -⟩⟩
    · have upper : rank origin tree child ≤ 2 * child.index + 1 :=
        rank_parsed_le (seats.place_old engrafted.constructed.forest)
      omega
    · rw [rank_of_wraps later wraps]
      omega
    · have one : rank origin tree child = 1 := rank_of_added later definition
      omega
  · rcases engrafted.below_added above new slot with ⟨-, later, held, known, plain⟩ | ⟨early, wraps⟩
    · rcases plain with ⟨default, inner, wraps⟩ | ⟨name, ranks, rfl⟩
      · rw [rank_of_default later known default, rank_of_wraps new wraps]
        omega
      · rw [rank_of_type known, rank_of_added new found]
        cases kind with
        | typeRef name ranks => exact absurd rfl (other name ranks)
        | _ => simp [addedRank]
    · rw [rank_of_wraps new wraps]
      exact Nat.lt_succ_of_le (rank_parsed_le early)

/-- No rank is greater than twice the number of nodes. -/
theorem rank_bound (engrafted : Engrafted limit origin tree root)
    (above : tree.arena.Reachable root parent) : rank origin tree parent ≤ 2 * tree.arena.size := by
  rcases engrafted.each parent above with ⟨kind, found, traced, -⟩
  have bound := Arena.kind_bound found
  rcases Nat.lt_or_ge parent.index origin.arena.size with old | new
  · have upper : rank origin tree parent ≤ 2 * parent.index + 1 := rank_parsed_le old
    omega
  · have wraps : ∀ {inner}, inner ∈ kind.children → tree.Wraps parent inner →
        rank origin tree parent ≤ 2 * tree.arena.size := by
      intro inner slot wraps
      rw [← Arena.children_of_kind found] at slot
      rcases engrafted.each inner (above.tail slot) with ⟨held, known, -⟩
      have bound := Arena.kind_bound known
      rw [rank_of_wraps new wraps]
      omega
    rw [rank_of_added new found]
    cases traced with
    | parsed was _ _ => exact absurd (Arena.kind_bound was) (Nat.not_lt.mpr new)
    | added _ form =>
        cases form with
        | typeRef | literal | construct | definition =>
            simp only [addedRank]
            omega
        | @cast target inner source =>
            rw [← rank_of_added new found]
            exact wraps (by simp [NodeKind.children]) (Or.inl ⟨_, _, found⟩)
        | @assign definition value =>
            rw [← rank_of_added new found]
            exact wraps (by simp [NodeKind.children]) (Or.inr ⟨_, found⟩)

theorem hierarchy (engrafted : Engrafted limit origin tree root) : tree.Hierarchy root where
  present := by
    intro id above
    rcases engrafted.each id above with ⟨kind, found, -⟩
    exact ⟨Arena.kind_bound found, engrafted.spanned id above⟩
  distinct _ := engrafted.distinct
  single _ _ _ := engrafted.single
  ranked := ⟨rank origin tree, fun _ _ => engrafted.rank_falls⟩
  covers := by
    intro parent child above slot
    rcases engrafted.each parent above with ⟨kind, found, -, joined⟩
    rw [Arena.children_of_kind found] at slot
    exact joined.covers child slot

end Engrafted

end SourceTree

/-- The image of a node may stand wherever the node may. -/
theorem NodeKind.Alike.admits {slot other : Type} {stands : Category → slot → other → Prop}
    {kind : NodeKind slot} {image : NodeKind other} (alike : kind.Alike stands image)
    (category : Category) : category.admits image = category.admits kind := by
  cases alike with
  | definition only => cases only <;> cases category <;> rfl
  | _ => cases category <;> rfl

theorem NodeKind.isExpression_of_default {slot : Type} {kind : NodeKind slot}
    (default : kind.isDefault = true) : kind.isExpression = true := by
  cases kind <;> first | rfl | cases default

namespace SourceTree.Engrafted

variable {limit : Position} {origin tree : SourceTree} {root id child : NodeId}
  {category : Category} {kind : NodeKind NodeId}

/-- A parsed node may stand where it was parsed. -/
theorem admitted_of_parsed (engrafted : Engrafted limit origin tree root)
    (above : tree.arena.Reachable root child) (admitted : origin.arena.Admitted category child) :
    tree.arena.Admitted category child := by
  rcases admitted with ⟨before, known, admits⟩
  rcases engrafted.each child above with ⟨after, found, traced, -⟩
  cases traced with
  | parsed was alike _ =>
      cases known.symm.trans was
      exact ⟨after, found, (alike.admits category).trans admits⟩
  | added new _ => exact absurd (Arena.kind_bound known) (Nat.not_lt.mpr new)

/-- Every slot holds a node that may stand there, if it is not one for new names. -/
theorem sorted (engrafted : Engrafted limit origin tree root)
    (above : tree.arena.Reachable root id) (found : tree.arena.kind? id = some kind)
    (slot : (category, child) ∈ kind.slots) (named : category ≠ .target) :
    tree.arena.Admitted category child := by
  have constructed := engrafted.constructed
  have member : child ∈ tree.arena.children id :=
    Arena.child_of_kind found (NodeKind.slot_is_child slot)
  have below : tree.arena.Reachable root child := above.tail member
  rcases engrafted.each id above with ⟨other, same, traced, -⟩
  cases found.symm.trans same
  cases traced with
  | parsed was alike _ =>
      rcases alike.slot_origin slot with ⟨place, held, stands⟩
      rcases stands with rfl | ⟨-, replaces⟩
      · exact engrafted.admitted_of_parsed below (constructed.admitted was _ held)
      · cases replaces with
        | cast found => exact ⟨_, found, rfl⟩
        | default found => exact ⟨_, found, rfl⟩
        | definition => exact absurd rfl named
  | added new form =>
      have spelled : ∀ {type written}, tree.arena.Spells type written →
          tree.arena.Admitted .type written := fun spells => ⟨_, spells.1, rfl⟩
      cases form with
      | typeRef | literal => cases slot
      | construct spells =>
          cases List.mem_singleton.mp slot
          exact spelled spells
      | @definition written name spells =>
          rcases List.mem_map.mp slot with ⟨node, inside, same⟩
          cases same
          rcases spells child (Option.mem_toList.mp inside) with ⟨type, spells⟩
          exact spelled spells
      | @assign definition value kind old was late held default =>
          rcases List.mem_pair.mp slot with same | same
          · cases same
            exact absurd rfl named
          · cases same
            exact ⟨kind, held, NodeKind.isExpression_of_default default⟩
      | @cast target inner source goal spells old =>
          rcases List.mem_pair.mp slot with same | same
          · cases same
            exact spelled spells
          · cases same
            -- The cast stands where its operand was parsed.
            rcases engrafted.seats_of_wraps above new (Or.inl ⟨_, _, found⟩) with
              ⟨parent, ⟨before, after, category, known, now, inside, stands⟩⟩
            have place := (List.of_mem_zip inside).1
            rcases stands with rfl | ⟨-, replaces⟩
            · exact absurd old (Nat.not_lt.mpr new)
            · cases replaces with
              | cast =>
                  exact engrafted.admitted_of_parsed below (constructed.admitted known _ place)
              | default wraps => cases found.symm.trans wraps
              | definition _ wraps => cases found.symm.trans wraps

end SourceTree.Engrafted

end ModuleLang
