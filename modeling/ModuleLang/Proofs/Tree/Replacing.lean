import ModuleLang.Proofs.Tree.Slots

/-!
Replacing a child. The walk over the slots replaces the first slot that holds the
old child; where no child stands in two slots that is the only one, and the
result is the kind with this one slot changed.
-/

namespace ModuleLang.NodeKind

variable {slot : Type} [DecidableEq slot] {old new : slot}

/-- Replaces the old child wherever it stands. -/
def swap (old new seen : slot) : slot := if seen = old then new else seen

theorem swap_of_ne {seen : slot} (different : seen ≠ old) : swap old new seen = seen :=
  if_neg different

theorem run_step {first second : Type} (action : StateM Bool first)
    (next : first → StateM Bool second) (found : Bool) :
    (action >>= next).run found = (next (action.run found).1).run (action.run found).2 :=
  rfl

theorem run_done {result : Type} (value : result) (found : Bool) :
    (pure value : StateM Bool result).run found = (value, found) :=
  rfl

variable (old new)

/-- A walk over some slots in which no child stands twice. Its state tells whether
the old child was met. -/
def Walks {result : Type} (action : StateM Bool result) (value : result) (part : List slot) :
    Prop :=
  part.Nodup → ∀ found : Bool, (found = true → old ∉ part) →
    action.run found = (value, found || decide (old ∈ part))

theorem walks_done {result : Type} (value : result) : Walks old (pure value) value [] := by
  intro _ found _
  rw [run_done]
  simp

theorem walks_slot (seen : slot) : Walks old (replaceSlot old new seen) (swap old new seen) [seen] := by
  intro _ found once
  cases found with
  | false =>
      by_cases same : seen = old
      · simp [replaceSlot, swap, same]
        rfl
      · simp [replaceSlot, swap, same, Ne.symm same]
        rfl
  | true =>
      have different : seen ≠ old := by simpa [eq_comm] using once rfl
      simp [replaceSlot, swap, different]
      rfl

variable {old new}

theorem Walks.then {first second : Type} {action : StateM Bool first}
    {next : first → StateM Bool second} {value : first} {last : second} {part more : List slot}
    (walked : Walks old action value part) (rest : Walks old (next value) last more) :
    Walks old (action >>= next) last (part ++ more) := by
  intro distinct found once
  obtain ⟨left, right, apart⟩ := List.nodup_append.mp distinct
  rw [run_step, walked left found fun met member => once met (List.mem_append_left _ member)]
  rw [rest right]
  · simp only [List.mem_append, Bool.or_assoc, Bool.decide_or]
  · intro met member
    rw [Bool.or_eq_true, decide_eq_true_iff] at met
    obtain before | inside := met
    · exact once before (List.mem_append_right _ member)
    · exact apart old inside old member rfl

theorem Walks.congr {result : Type} {action : StateM Bool result} {value : result}
    {part other : List slot} (walked : Walks old action value part) (same : part = other) :
    Walks old action value other :=
  same ▸ walked

variable (old new)

theorem walks_list (children : List slot) :
    Walks old (children.mapM (replaceSlot old new)) (children.map (swap old new)) children := by
  induction children with
  | nil => exact walks_done old []
  | cons child children ih =>
      rw [List.mapM_cons]
      refine Walks.congr ?_ (show [child] ++ (children ++ []) = child :: children by simp)
      refine .then (walks_slot old new child) ?_
      refine .then ih ?_
      exact walks_done old _

theorem walks_option (child : Option slot) :
    Walks old (child.mapM (replaceSlot old new)) (child.map (swap old new)) child.toList := by
  cases child with
  | none => exact walks_done old none
  | some child =>
      change Walks old (replaceSlot old new child >>= fun seen => pure (some seen)) _ _
      refine .then (walks_slot old new child) ?_
      exact walks_done old (some (swap old new child))

/-- The walk over a whole node. -/
theorem walks_kind (kind : NodeKind slot) :
    Walks old (kind.mapM (replaceSlot old new)) (kind.map (swap old new)) kind.children := by
  have slots := walks_slot old new
  have lists := walks_list old new
  have options := walks_option old new
  cases kind with
  | root modules imports functions =>
      refine Walks.congr ?_ (show modules ++ (imports ++ (functions ++ [])) = _ by simp [children])
      refine .then (lists modules) ?_
      refine .then (lists imports) ?_
      refine .then (lists functions) ?_
      exact walks_done old _
  | function result name parameters block =>
      refine Walks.congr ?_
        (show result.toList ++ (parameters ++ ([block] ++ [])) = _ by simp [children])
      refine .then (options result) ?_
      refine .then (lists parameters) ?_
      refine .then (slots block) ?_
      exact walks_done old _
  | condition predicate thenBody elseBody =>
      refine Walks.congr ?_
        (show [predicate] ++ ([thenBody] ++ (elseBody.toList ++ [])) = _ by simp [children])
      refine .then (slots predicate) ?_
      refine .then (slots thenBody) ?_
      refine .then (options elseBody) ?_
      exact walks_done old _
  | construct type arguments =>
      refine Walks.congr ?_ (show [type] ++ (arguments ++ []) = _ by simp [children])
      refine .then (slots type) ?_
      refine .then (lists arguments) ?_
      exact walks_done old _
  | body children =>
      exact Walks.congr (.then (lists children) (walks_done old _)) (List.append_nil _)
  | call name children =>
      exact Walks.congr (.then (lists children) (walks_done old _)) (List.append_nil _)
  | returnFrom child =>
      exact Walks.congr (.then (options child) (walks_done old _)) (List.append_nil _)
  | definition child name =>
      exact Walks.congr (.then (options child) (walks_done old _)) (List.append_nil _)
  | loop first second | newArray first second | cast first second _ | indexAccess first second
  | assign _ first second | binary _ first second =>
      refine .then (slots first) ?_
      refine .then (slots second) ?_
      exact walks_done old _
  | parameter child name => exact .then (slots child) (walks_done old _)
  | memberAccess child name => exact .then (slots child) (walks_done old _)
  | unary operator child => exact .then (slots child) (walks_done old _)
  | _ => exact walks_done old _

variable {old}

/-- Replacing a child that stands in one slot only. -/
theorem replace_child_eq (kind : NodeKind slot) (distinct : kind.children.Nodup)
    (member : old ∈ kind.children) :
    kind.replaceChild? old new = some (kind.map (swap old new)) := by
  have run := walks_kind old new kind distinct false (by simp)
  unfold replaceChild?
  rw [run, decide_eq_true member]
  rfl

end ModuleLang.NodeKind

/-!
Nodes with other nodes in their slots. Replacing a child goes along with renaming: a walk
over renamed slots is the renamed walk over the slots.
-/

namespace ModuleLang

namespace NodeKind

section Naturality

variable {effect : Type → Type} [Monad effect] [LawfulMonad effect]
  {slot image other final : Type} {change : slot → image} {after : other → final}
  {visit : image → effect final} {step : slot → effect other}

theorem mapM_list_natural {items : List slot}
    (visits : ∀ item ∈ items, visit (change item) = after <$> step item) :
    (items.map change).mapM visit = List.map after <$> items.mapM step := by
  induction items with
  | nil => simp
  | cons head tail ih =>
      have rest := ih fun item member => visits item (List.mem_cons_of_mem _ member)
      rw [List.map_cons, List.mapM_cons, List.mapM_cons, visits head List.mem_cons_self, rest]
      simp only [map_bind, bind_map_left, map_pure, List.map_cons]

theorem mapM_option_natural {held : Option slot}
    (visits : ∀ item ∈ held.toList, visit (change item) = after <$> step item) :
    (held.map change).mapM visit = Option.map after <$> held.mapM step := by
  cases held with
  | none => simp
  | some item =>
      rw [Option.map_some, Option.mapM_some, Option.mapM_some, visits item List.mem_cons_self]
      simp

/-- A walk over renamed slots is the renamed walk over the slots. -/
theorem mapM_natural {kind : NodeKind slot}
    (visits : ∀ child ∈ kind.children, visit (change child) = after <$> step child) :
    (kind.map change).mapM visit = map after <$> kind.mapM step := by
  cases kind with
  | root modules imports functions =>
      simp only [children, List.forall_mem_append] at visits
      simp only [map, mapM, mapM_list_natural visits.1.1, mapM_list_natural visits.1.2,
        mapM_list_natural visits.2, map_bind, bind_map_left, map_pure]
  | function result name parameters block =>
      simp only [children, List.forall_mem_append, List.forall_mem_cons] at visits
      simp only [map, mapM, mapM_option_natural visits.1.1, mapM_list_natural visits.1.2,
        visits.2.1, map_bind, bind_map_left, map_pure]
  | condition predicate thenBody elseBody =>
      simp only [children, List.forall_mem_cons] at visits
      simp only [map, mapM, visits.1, visits.2.1, mapM_option_natural visits.2.2, map_bind,
        bind_map_left, map_pure]
  | construct type arguments =>
      simp only [children, List.forall_mem_cons] at visits
      simp only [map, mapM, visits.1, mapM_list_natural visits.2, map_bind, bind_map_left,
        map_pure]
  | body items | call _ items =>
      simp only [map, mapM, @mapM_list_natural _ _ _ _ _ _ _ _ _ _ _ items visits, map_bind,
        bind_map_left, map_pure]
  | returnFrom held | definition held _ =>
      simp only [map, mapM, @mapM_option_natural _ _ _ _ _ _ _ _ _ _ _ held visits, map_bind,
        bind_map_left, map_pure]
  | _ =>
      simp only [children, List.forall_mem_cons] at visits
      simp only [map, mapM, visits, map_bind, bind_map_left, map_pure]

end Naturality
variable {slot : Type}

theorem map_same {change : slot → slot} {kind : NodeKind slot}
    (same : ∀ child ∈ kind.children, change child = child) : kind.map change = kind := by
  have lists : ∀ {items : List slot}, (∀ child ∈ items, change child = child) →
      items.map change = items := fun all => (List.map_congr_left all).trans (List.map_id _)
  have options : ∀ {held : Option slot}, (∀ child ∈ held.toList, change child = child) →
      held.map change = held := by
    intro held all
    cases held with
    | none => rfl
    | some child => exact congrArg some (all child List.mem_cons_self)
  cases kind with
  | root modules imports functions =>
      simp only [children, List.forall_mem_append] at same
      rw [map, lists same.1.1, lists same.1.2, lists same.2]
  | function result name parameters block =>
      simp only [children, List.forall_mem_append, List.forall_mem_cons] at same
      rw [map, options same.1.1, lists same.1.2, same.2.1]
  | condition predicate thenBody elseBody =>
      simp only [children, List.forall_mem_cons] at same
      rw [map, same.1, same.2.1, options same.2.2]
  | construct type arguments =>
      simp only [children, List.forall_mem_cons] at same
      rw [map, same.1, lists same.2]
  | body items | call _ items => rw [map, @lists items same]
  | returnFrom held | definition held _ => rw [map, @options held same]
  | _ =>
      simp only [children, List.forall_mem_cons] at same
      simp only [map, same]

section Replacing

variable [DecidableEq slot] {rename : slot → slot} {old new : slot} {kind replaced : NodeKind slot}

theorem replace_slot_natural {seen : slot} (same : rename seen = rename old ↔ seen = old) :
    replaceSlot (rename old) (rename new) (rename seen) = rename <$> replaceSlot old new seen := by
  unfold replaceSlot
  rw [map_bind]
  apply bind_congr
  intro found
  simp only [same]
  split
  · rw [map_bind]
    apply bind_congr
    intro _
    exact (map_pure _ _).symm
  · exact (map_pure _ _).symm

/-- The old child is replaced under its other name. -/
theorem replace_child_renamed
    (same : ∀ child ∈ kind.children, rename child = rename old → child = old) :
    (kind.map rename).replaceChild? (rename old) (rename new) =
      (kind.replaceChild? old new).map (map rename) := by
  have walk : (kind.map rename).mapM (replaceSlot (rename old) (rename new)) =
      map rename <$> kind.mapM (replaceSlot old new) := by
    apply mapM_natural
    intro child slot
    exact replace_slot_natural ⟨same child slot, congrArg rename⟩
  rw [replaceChild?, walk, replaceChild?]
  change (if ((kind.mapM (replaceSlot old new)).run false).2 = true then
    some (map rename ((kind.mapM (replaceSlot old new)).run false).1) else none) = _
  rcases (kind.mapM (replaceSlot old new)).run false with ⟨replaced, met⟩
  cases met with
  | true => rfl
  | false => rfl

/-- What holds of the children and of the new child holds of all that there are then. -/
theorem children_of_replaced {holds : slot → Prop} (all : ∀ child ∈ kind.children, holds child)
    (own : holds new) (done : kind.replaceChild? old new = some replaced) :
    ∀ child ∈ replaced.children, holds child := by
  classical
  -- A change that only touches what does not hold goes along with the walk.
  let change : slot → slot := fun child => if holds child then child else new
  have kept : ∀ {child}, holds child → change child = child := fun held => if_pos held
  have walk : (kind.map change).mapM (replaceSlot old new) =
      map change <$> kind.mapM (replaceSlot old new) := by
    apply mapM_natural
    intro child slot
    rw [kept (all child slot)]
    unfold replaceSlot
    rw [map_bind]
    apply bind_congr
    intro found
    split
    · rw [map_bind]
      apply bind_congr
      intro _
      rw [map_pure, kept own]
    · rw [map_pure, kept (all child slot)]
  rw [map_same fun child slot => kept (all child slot)] at walk
  unfold replaceChild? at done
  rw [walk] at done
  have changed : replaced = map change ((kind.mapM (replaceSlot old new)).run false).1 := by
    change (if ((kind.mapM (replaceSlot old new)).run false).2 = true then
      some (map change ((kind.mapM (replaceSlot old new)).run false).1) else none) = _ at done
    split at done
    · exact (Option.some.inj done).symm
    · cases done
  intro child slot
  rw [changed, children_map] at slot
  rcases List.mem_map.mp slot with ⟨seen, -, rfl⟩
  by_cases held : holds seen
  · rw [kept held]
    exact held
  · rw [show change seen = new from if_neg held]
    exact own

end Replacing

end NodeKind

/-- The node with other nodes in its slots. -/
def Node.renamed (rename : NodeId → NodeId) (node : Node) : Node :=
  ⟨node.kind.map rename, node.type⟩

theorem Node.renamed_same {rename : NodeId → NodeId} {node : Node}
    (same : ∀ child ∈ node.kind.children, rename child = child) : node.renamed rename = node := by
  unfold Node.renamed
  rw [NodeKind.map_same same]

end ModuleLang
