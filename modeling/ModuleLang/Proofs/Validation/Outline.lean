import Mathlib.Data.List.Pairwise
import ModuleLang.Proofs.Typing.Hierarchy
import ModuleLang.Proofs.Validation.Ends

/-!
The shape of a module. Parsing builds a hierarchy from the leaves up, inference puts
every node that it adds into one slot, and the return at the end of a function is a new
leaf of its body. The outline of the module are its functions, their bodies and the
statements in these. All parts of the outline are reached through parts, and of two of
them one stands in the other or ends before the other begins. That is so in the tree
that was parsed and, as what stands for a statement has its place, in the tree with the
types.
-/

namespace ModuleLang

/-- What is part of the outline. -/
def Category.isPart : Category → Bool
  | function | body | statement => true
  | _ => false

namespace NodeKind

variable {slot other : Type}

/-- The functions, bodies and statements in the slots of a node. -/
def outline : NodeKind slot → List slot
  | root _ _ functions => functions
  | function _ _ _ block => [block]
  | body statements => statements
  | condition _ thenBody elseBody => thenBody :: elseBody.toList
  | loop _ block => [block]
  | _ => []

theorem outline_sublist (kind : NodeKind slot) : kind.outline.Sublist kind.children := by
  cases kind with
  | root | function => exact List.sublist_append_right _ _
  | condition | loop => exact List.sublist_cons_self _ _
  | body => exact List.Sublist.refl _
  | _ => exact List.nil_sublist _

theorem outline_of_slot {kind : NodeKind slot} {category : Category} {child : slot}
    (member : (category, child) ∈ kind.slots) (part : category.isPart = true) :
    child ∈ kind.outline := by
  cases kind with
  | root | function | body | condition | loop =>
      simp only [slots, List.mem_append, List.mem_cons, List.mem_map, Prod.mk.injEq] at member
      grind [Category.isPart, outline]
  | assign operator => cases operator <;> grind [slots, Category.isPart, AssignOperator.side]
  | _ => grind [slots, Category.isPart]

/-- What is no part of the outline has none in its slots. -/
theorem not_outer_of_not_part {category : Category} {kind : NodeKind slot}
    (other : category.isPart = false) (admits : category.admits kind = true) :
    kind.isOuter = false := by
  cases category with
  | function | body | statement => cases other
  | _ => cases kind <;> first | rfl | cases admits

theorem not_member_of_part {category : Category} {kind : NodeKind slot}
    (part : category.isPart = true) (admits : category.admits kind = true) (name : String) :
    kind ≠ .member name := by
  rintro rfl
  cases category with
  | function | body | statement => cases admits
  | _ => cases part

/-- Parts stand for parts. -/
theorem Alike.outline {stands : Category → slot → other → Prop} {kind : NodeKind slot}
    {image : NodeKind other} (alike : kind.Alike stands image) :
    List.Forall₂ (fun old now => ∃ category : Category, category.isPart = true ∧
      (category, old) ∈ kind.slots ∧ stands category old now) kind.outline image.outline := by
  have lists : ∀ category (first : List slot) (second : List other), category.isPart = true →
      (∀ old ∈ first, (category, old) ∈ kind.slots) →
      List.Forall₂ (stands category) first second →
      List.Forall₂ (fun old now => ∃ category : Category, category.isPart = true ∧
        (category, old) ∈ kind.slots ∧ stands category old now) first second := by
    intro category first second part inside matched
    induction matched with
    | nil => exact .nil
    | cons held _ ih =>
        exact .cons ⟨category, part, inside _ List.mem_cons_self, held⟩
          (ih fun old member => inside old (List.mem_cons_of_mem _ member))
  cases alike with
  | root _ _ third => exact lists .function _ _ rfl (by simp [slots, NodeKind.outline]) third
  | function _ _ third => exact lists .body _ _ rfl (by simp [slots, NodeKind.outline]) (.cons third .nil)
  | body all => exact lists .statement _ _ rfl (by simp [slots, NodeKind.outline]) all
  | loop _ second => exact lists .body _ _ rfl (by simp [slots, NodeKind.outline]) (.cons second .nil)
  | condition _ second third =>
      refine lists .body _ _ rfl (by simp [slots, NodeKind.outline]) (.cons second ?_)
      cases third with
      | none => exact .nil
      | some held => exact .cons held .nil
  | _ => exact .nil

end NodeKind

namespace Arena

variable {arena : Arena} {root id : NodeId} {kind : NodeKind NodeId}

def outline (arena : Arena) (id : NodeId) : List NodeId :=
  ((arena.kind? id).map NodeKind.outline).getD []

theorem outline_of_kind (found : arena.kind? id = some kind) : arena.outline id = kind.outline := by
  rw [outline, found]
  rfl

theorem child_of_outline {part : NodeId} (member : part ∈ arena.outline id) :
    part ∈ arena.children id := by
  unfold outline at member
  cases found : arena.kind? id with
  | none => simp [found] at member
  | some kind =>
      rw [found] at member
      exact child_of_kind found ((kind.outline_sublist).subset member)

/-- A part of the outline stands in another one, or is the same. -/
def Comprises (arena : Arena) : NodeId → NodeId → Prop :=
  Relation.ReflTransGen fun parent child => child ∈ arena.outline parent

theorem Comprises.reachable {upper lower : NodeId} (comprises : arena.Comprises upper lower) :
    arena.Reachable upper lower :=
  comprises.lift id fun _ _ => child_of_outline

end Arena

namespace SourceTree

/-- What stands in a slot may stand there, or is at least no part of the outline that
has parts. -/
def Sorts (tree : SourceTree) (root : NodeId) : Prop :=
  ∀ id kind category child, tree.arena.Reachable root id → tree.arena.kind? id = some kind →
    (category, child) ∈ kind.slots → ∃ image, tree.arena.kind? child = some image ∧
      (category.admits image = true ∨ image.isOuter = false)

/-- No module stands in another one. -/
theorem Sorts.is_root {tree : SourceTree} {root id : NodeId} {kind : NodeKind NodeId}
    (sorts : tree.Sorts root) (above : tree.arena.Reachable root id)
    (found : tree.arena.kind? id = some kind) (isRoot : kind.isRoot = true) : id = root := by
  obtain same | ⟨parent, reached, slot⟩ := Relation.ReflTransGen.cases_tail above
  · exact same
  · obtain ⟨held, known, member⟩ := Arena.kind_of_child slot
    obtain ⟨category, inside⟩ := NodeKind.child_has_slot member
    obtain ⟨image, same, admits | plain⟩ := sorts _ _ _ _ reached known inside
    all_goals
      cases found.symm.trans same
      cases kind with
      | root => cases category <;> first | cases admits | cases plain
      | _ => cases isRoot

/-- Of two nodes in a row one ends before the other begins. -/
theorem before_or_before {tree : SourceTree} {row : List NodeId} {first second : NodeId}
    (ordered : row.Pairwise tree.Before) (left : first ∈ row) (right : second ∈ row)
    (apart : first ≠ second) : tree.Before first second ∨ tree.Before second first := by
  have either : row.Pairwise fun left right => tree.Before left right ∨ tree.Before right left :=
    ordered.imp Or.inl
  have : Std.Symm fun left right => tree.Before left right ∨ tree.Before right left :=
    ⟨fun _ _ => Or.symm⟩
  exact either.forall left right apart

/-- A tree with an outline, from its root on. -/
structure Outlined (tree : SourceTree) (root : NodeId) : Prop where
  hierarchy : tree.Hierarchy root
  sorts : tree.Sorts root
  ordered : ∀ {id}, tree.arena.Reachable root id → (tree.arena.outline id).Pairwise tree.Before
  filled : ∀ {body statements}, tree.arena.Reachable root body →
    tree.arena.kind? body = some (.body statements) → ∀ statement ∈ statements,
    tree.Filled statement

namespace Outlined

variable {tree : SourceTree} {root id first second upper : NodeId} {kind : NodeKind NodeId}
  (outlined : tree.Outlined root)

include outlined

/-- Parts of the outline are reached through parts. -/
theorem comprises_or_inner (above : tree.arena.Reachable root id) :
    tree.arena.Comprises root id ∨
      ∃ kind, tree.arena.kind? id = some kind ∧ kind.isOuter = false := by
  induction above with
  | refl => exact Or.inl .refl
  | @tail middle child above slot ih =>
      obtain ⟨kind, found, member⟩ := Arena.kind_of_child slot
      obtain ⟨category, inside⟩ := NodeKind.child_has_slot member
      obtain ⟨image, known, admits | plain⟩ := outlined.sorts _ _ _ _ above found inside
      · obtain reached | ⟨other, same, inner⟩ := ih
        · cases part : category.isPart with
          | true =>
              refine Or.inl (reached.tail ?_)
              rw [Arena.outline_of_kind found]
              exact NodeKind.outline_of_slot inside part
          | false => exact Or.inr ⟨image, known, NodeKind.not_outer_of_not_part part admits⟩
        · cases found.symm.trans same
          exact Or.inr ⟨image, known, NodeKind.not_outer_of_inner
            (NodeKind.inner_of_not_outer inner _ inside) admits⟩
      · exact Or.inr ⟨image, known, plain⟩

theorem comprises (above : tree.arena.Reachable root id) (found : tree.arena.kind? id = some kind)
    (outer : kind.isOuter = true) : tree.arena.Comprises root id := by
  obtain reached | ⟨other, same, inner⟩ := outlined.comprises_or_inner above
  · exact reached
  · cases found.symm.trans same
    rw [outer] at inner
    cases inner

/-- Of two parts of the outline one stands in the other, or ends before the other
begins. -/
theorem apart (above : tree.arena.Reachable root upper)
    (left : tree.arena.Comprises upper first) (right : tree.arena.Comprises upper second) :
    tree.arena.Comprises first second ∨ tree.arena.Comprises second first ∨
      tree.Before first second ∨ tree.Before second first := by
  induction left using Relation.ReflTransGen.head_induction_on with
  | refl => exact Or.inl right
  | @head upper inner slot below ih =>
      obtain same | ⟨other, slot', below'⟩ := Relation.ReflTransGen.cases_head right
      · subst same
        exact Or.inr (Or.inl (Relation.ReflTransGen.head slot below))
      · have reached : tree.arena.Reachable root inner := above.tail (Arena.child_of_outline slot)
        have also : tree.arena.Reachable root other := above.tail (Arena.child_of_outline slot')
        by_cases same : inner = other
        · subst same
          exact ih reached below'
        · obtain before | before := before_or_before (outlined.ordered above) slot slot' same
          · exact Or.inr (Or.inr (Or.inl (outlined.hierarchy.before_below before reached also
              (Arena.Comprises.reachable below) (Arena.Comprises.reachable below'))))
          · exact Or.inr (Or.inr (Or.inr (outlined.hierarchy.before_below before also reached
              (Arena.Comprises.reachable below') (Arena.Comprises.reachable below))))

end Outlined

section Constructed

variable {limit : Position} {tree : SourceTree} (constructed : tree.Constructed limit)
  {root : NodeId} {modules imports functions : List NodeId}

include constructed

theorem Constructed.sorts : tree.Sorts root := by
  intro id kind category child _ known slot
  obtain ⟨image, same, admits⟩ := constructed.admitted known _ slot
  exact ⟨image, same, Or.inl admits⟩

theorem Constructed.ordered_outline
    (found : tree.arena.kind? root = some (.root modules imports functions))
    (rows : tree.Rows modules imports functions) {id : NodeId} {kind : NodeKind NodeId}
    (place : id = root ∨ kind.isRoot = false) (known : tree.arena.kind? id = some kind) :
    kind.outline.Pairwise tree.Before := by
  obtain rfl | other := place
  · cases found.symm.trans known
    exact rows.functions.imp And.right
  · exact ((constructed.ordered known other).imp And.right).sublist kind.outline_sublist

theorem Constructed.outlined
    (found : tree.arena.kind? root = some (.root modules imports functions))
    (rows : tree.Rows modules imports functions) : tree.Outlined root where
  hierarchy := constructed.hierarchy (Arena.kind_bound found)
  sorts := constructed.sorts
  ordered := by
    intro id above
    cases known : tree.arena.kind? id with
    | none => simp [Arena.outline, known]
    | some kind =>
        rw [Arena.outline_of_kind known]
        refine constructed.ordered_outline found rows ?_ known
        cases isRoot : kind.isRoot with
        | true => exact Or.inl (constructed.sorts.is_root above known isRoot)
        | false => exact Or.inr rfl
  filled := by
    intro body statements _ known statement member
    exact constructed.filled known (.statement, statement) (by simp [NodeKind.slots, member]) nofun

end Constructed

section Engrafted

variable {limit : Position} {origin tree : SourceTree} {root id : NodeId}
  (engrafted : Engrafted limit origin tree root)

include engrafted

/-- A definition stays one. -/
theorem Engrafted.definition_kept (above : tree.arena.Reachable root id)
    {type : Option NodeId} {name : String}
    (was : origin.arena.kind? id = some (.definition type name)) :
    ∃ type, tree.arena.kind? id = some (.definition type name) := by
  obtain ⟨kind, found, traced, -⟩ := engrafted.each id above
  cases traced with
  | parsed before alike _ =>
      cases was.symm.trans before
      cases alike
      exact ⟨_, found⟩
  | added new _ => exact absurd (Arena.kind_bound was) (Nat.not_lt.mpr new)

/-- Left of an assignment may stand a definition that was parsed elsewhere or not at all. -/
theorem Engrafted.sorts : tree.Sorts root := by
  intro id kind category child above found slot
  by_cases named : category = .target
  · subst named
    have below : tree.arena.Reachable root child :=
      above.tail (Arena.child_of_kind found (NodeKind.slot_is_child slot))
    obtain ⟨other, same, traced, -⟩ := engrafted.each id above
    cases found.symm.trans same
    cases traced with
    | parsed was alike _ =>
        obtain ⟨place, held, stands⟩ := alike.slot_origin slot
        obtain rfl | ⟨-, replaces⟩ := stands
        · obtain ⟨image, known, admits⟩ :=
            engrafted.admitted_of_parsed below (engrafted.constructed.admitted was _ held)
          exact ⟨image, known, Or.inl admits⟩
        · cases replaces with
          | definition _ now => exact ⟨_, now, Or.inr rfl⟩
    | added _ form =>
        cases form with
        | assign _ was =>
            obtain ⟨type, name, known⟩ := was
            cases slot with
            | head =>
                obtain ⟨_, now⟩ := engrafted.definition_kept below known
                exact ⟨_, now, Or.inr rfl⟩
            | tail _ last => cases List.mem_singleton.mp last
        | definition => grind [NodeKind.slots]
        | _ => grind [NodeKind.slots]
  · obtain ⟨image, known, admits⟩ := engrafted.sorted above found slot named
    exact ⟨image, known, Or.inl admits⟩

end Engrafted

section Places

variable {origin tree : SourceTree} {row others : List NodeId}

theorem before_of_places (ordered : row.Pairwise origin.Before)
    (places : List.Forall₂ (fun old now => tree.spans.span? now = origin.spans.span? old) row
      others) : others.Pairwise tree.Before := by
  induction places with
  | nil => exact .nil
  | @cons old now row others place rest ih =>
      obtain ⟨first, ordered⟩ := List.pairwise_cons.mp ordered
      refine List.pairwise_cons.mpr ⟨fun next member => ?_, ih ordered⟩
      obtain ⟨behind, inside, placed⟩ := partner_of_member rest member
      intro left right leftSpan rightSpan
      exact first behind inside left right (place.symm.trans leftSpan) (placed.symm.trans rightSpan)

theorem filled_of_place {old now : NodeId} (filled : origin.Filled old)
    (place : tree.spans.span? now = origin.spans.span? old) : tree.Filled now :=
  fun span known => filled span (place.symm.trans known)

end Places

end SourceTree

namespace Inference

variable {limit : Position} {origin : SourceTree} {fileName : String} {host : Host} {root : NodeId}
  {modules imports functions : List NodeId} {signatures : List Signature}
  {signed final : InferenceState}

/-- What stands for a part of the outline has its place in the text. -/
theorem Course.part_place
    (course : Course limit origin fileName host root modules imports functions signatures signed
      final) {category : Category} {kind : NodeKind NodeId} {id old now : NodeId}
    (known : origin.arena.kind? id = some kind) (part : category.isPart = true)
    (slot : (category, old) ∈ kind.slots) (above : final.tree.arena.Reachable root now)
    (stands : SourceTree.Stands origin final.tree category old now) :
    final.span? now = origin.spans.span? old := by
  have constructed := course.prepared.constructed
  obtain ⟨was, found, admits⟩ := constructed.admitted known _ slot
  have kept := course.inferred.sound.rests found (NodeKind.not_member_of_part part admits)
  obtain same | ⟨new, replaces⟩ := stands
  · rw [same]
    exact kept
  · cases replaces with
    | cast => cases part
    | definition => cases part
    | default assigns =>
        obtain ⟨other, same, traced, -⟩ := course.engrafted.each now above
        cases assigns.symm.trans same
        cases traced with
        | parsed before _ _ => exact absurd (Arena.kind_bound before) (Nat.not_lt.mpr new)
        | added _ form =>
            cases form with
            | assign _ _ _ _ _ place => exact Eq.trans place kept

theorem Course.outlined
    (course : Course limit origin fileName host root modules imports functions signatures signed
      final) (rows : origin.Rows modules imports functions) : final.tree.Outlined root := by
  have constructed := course.prepared.constructed
  have engrafted := course.engrafted
  have sorts := engrafted.sorts
  -- What was parsed has parts in the same places, and what was added has none.
  have places : ∀ {id kind}, final.tree.arena.Reachable root id →
      final.tree.arena.kind? id = some kind → kind.outline = [] ∨
      ∃ before, origin.arena.kind? id = some before ∧ before.isRoot = kind.isRoot ∧
        before.Alike (SourceTree.Stands origin final.tree) kind ∧
        List.Forall₂ (fun old now => final.tree.spans.span? now = origin.spans.span? old)
          before.outline kind.outline := by
    intro id kind above found
    obtain ⟨other, same, traced, -⟩ := engrafted.each id above
    cases found.symm.trans same
    cases traced with
    | added _ form => cases form <;> exact Or.inl rfl
    | @parsed before _ known alike _ =>
        refine Or.inr ⟨before, known, by cases alike <;> rfl, alike, ?_⟩
        have parts := alike.outline
        refine List.forall₂_iff_get.mpr ⟨parts.length_eq, fun index first second => ?_⟩
        obtain ⟨category, part, slot, stands⟩ := parts.get first second
        refine course.part_place known part slot (above.tail ?_) stands
        rw [Arena.children_of_kind found]
        exact kind.outline_sublist.subset (List.get_mem _ _)
  refine ⟨engrafted.hierarchy, sorts, fun {id} above => ?_, ?_⟩
  · cases found : final.tree.arena.kind? id with
    | none => simp [Arena.outline, found]
    | some kind =>
        rw [Arena.outline_of_kind found]
        obtain none | ⟨before, known, alike, -, placed⟩ := places above found
        · rw [none]
          exact .nil
        · refine SourceTree.before_of_places ?_ placed
          refine constructed.ordered_outline course.prepared.found rows ?_ known
          cases isRoot : kind.isRoot with
          | true => exact Or.inl (sorts.is_root above found isRoot)
          | false => exact Or.inr (alike.trans isRoot)
  · intro body statements above found statement member
    obtain none | ⟨before, known, -, alike, placed⟩ := places above found
    · cases (show statements = [] from none)
      cases member
    · cases alike with
      | body =>
        obtain ⟨old, inside, place⟩ := partner_of_member placed member
        refine SourceTree.filled_of_place ?_ place
        exact constructed.filled known (.statement, old) (by
          simpa [NodeKind.slots, NodeKind.outline] using inside) nofun

end Inference

namespace CheckedModule

end CheckedModule

end ModuleLang
