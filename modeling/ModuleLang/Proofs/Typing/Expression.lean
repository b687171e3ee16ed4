import ModuleLang.Proofs.Typing.Visits
import ModuleLang.Typing.Inference.Expression

/-!
Expressions. The inference of subexpressions is a parameter, as in the rules
themselves: from every state in which a subexpression is untouched it works on
what lies below it, and returns the type that it has stored.
-/

namespace ModuleLang.Inference

variable {limit : Position} {origin : SourceTree} {results : Option Ty → Prop}
  {environment : Environment}

/-- A written type is resolved, or reported. -/
theorem yields_resolve_type (results : Option Ty → Prop) {node : NodeId} {state : InferenceState}
    (constructed : origin.Constructed limit) (admitted : origin.arena.Admitted .type node)
    (sound : Sound limit origin state) (untouched : Untouched origin (Below origin [node]) state) :
    Yields (resolveType environment node) state fun type final =>
      Worked limit origin results [node] state final ∧
      (∀ found, type = some found → final.type? node = some found ∧ found ≠ .void) ∧
      (type = none → ¬ final.Clean) ∧ (final.Clean →
        final.type? node = origin.arena.written? environment.host node) := by
  obtain ⟨kind, found, admits⟩ := admitted
  have visits : Visits limit origin results node kind [] kind.children state state :=
    .begin constructed found sound untouched
  cases kind with
  | typeRef name ranks =>
      have judged : ∀ own, Judged limit origin results node (.typeRef name ranks) own state state :=
        fun own => judged_plain visits fun _ => trivial
      unfold resolveType
      rw [yields_bind, yields_kind, visits.node_same.1]
      simp only
      split
      · rw [yields_bind]
        refine yields_report sound visits.node_spanned fun final reported => ?_
        refine ⟨worked_of_judged ((judged _).reported reported), nofun,
          fun _ => reported.unclean rfl, fun clean => absurd clean (reported.unclean rfl)⟩
      · rename_i base named
        have solid : base ≠ .void := by
          cases builtin : Ty.builtin? name with
          | some type =>
              rw [builtin] at named
              cases named
              exact Ty.builtin_ne_void builtin
          | none =>
              rw [builtin] at named
              exact Host.type_ne_void named
        rw [yields_bind]
        refine (yields_typed (judged (some (base.layered ranks)))).weaken ?_
        rintro _ final ⟨worked, stored⟩
        refine ⟨worked, ?_, nofun, fun _ => ?_⟩
        · intro type same
          cases same
          exact ⟨stored, Ty.layered_ne_void ranks solid⟩
        · simp only [stored, Arena.written?, found, Host.written?, named, Option.map_some]
  | _ => cases admits

/-- The inference of subexpressions with a number below `bound`. -/
def Infers (limit : Position) (origin : SourceTree) (results : Option Ty → Prop) (bound : Nat)
    (infer : NodeId → Inference (Option Ty)) : Prop :=
  ∀ node state, node.index < bound → origin.arena.Admitted .expression node →
    Sound limit origin state → Untouched origin (Below origin [node]) state →
    Yields (infer node) state fun type final =>
      Worked limit origin results [node] state final ∧ final.type? node = type

section Rules

variable {infer : NodeId → Inference (Option Ty)} {node child : NodeId} {kind : NodeKind NodeId}
  {done rest : List NodeId} {before state : InferenceState}

/-- Work on a child keeps the types of those before it. -/
theorem Visits.types_kept {after : InferenceState}
    (visits : Visits limit origin results node kind done (child :: rest) before state)
    (work : Worked limit origin results [child] state after) :
    ∀ earlier ∈ done, after.type? earlier = state.type? earlier := by
  intro earlier member
  have covered : Covered origin done before state earlier := Visits.child_covered member
  refine Arena.type_of_node (work.leaves.node earlier (visits.work.settled.bounded covered) ?_)
  exact visits.next_apart ⟨earlier, member, .refl⟩

theorem yields_visit
    (infers : Infers limit origin results node.index infer)
    (visits : Visits limit origin results node kind done (child :: rest) before state)
    (slot : (Category.expression, child) ∈ kind.slots) :
    Yields (infer child) state fun type final =>
      Visits limit origin results node kind (done ++ [child]) rest before final ∧
      final.type? child = type ∧ (∀ earlier ∈ done, final.type? earlier = state.type? earlier) ∧
      (final.Clean → state.Clean) := by
  have bound := visits.below_index (List.mem_append_right done (List.mem_cons_self (l := rest)))
  have admitted := visits.constructed.admitted visits.found _ slot
  refine (infers child state bound admitted visits.sound visits.next_untouched).weaken ?_
  rintro type final ⟨work, typed⟩
  exact ⟨visits.next work, typed, visits.types_kept work, work.leaves.clean⟩

theorem yields_visit_type
    (visits : Visits limit origin results node kind done (child :: rest) before state)
    (slot : (Category.type, child) ∈ kind.slots) :
    Yields (resolveType environment child) state fun type final =>
      Visits limit origin results node kind (done ++ [child]) rest before final ∧
      (∀ found, type = some found → final.type? child = some found ∧ found ≠ .void) ∧
      (type = none → ¬ final.Clean) ∧ (final.Clean →
        final.type? child = origin.arena.written? environment.host child) := by
  have admitted := visits.constructed.admitted visits.found _ slot
  refine (yields_resolve_type results visits.constructed admitted visits.sound
    visits.next_untouched).weaken ?_
  rintro type final ⟨work, known⟩
  exact ⟨visits.next work, known⟩

/-- Arguments are visited one after the other. -/
theorem yields_visit_all (infers : Infers limit origin results node.index infer)
    (visits : Visits limit origin results node kind done rest before state)
    (slots : ∀ argument ∈ rest, (Category.expression, argument) ∈ kind.slots) :
    Yields (rest.mapM infer) state fun _ final =>
      Visits limit origin results node kind kind.children [] before final := by
  refine (yields_mapM infer (fun _ left current => ∃ passed,
    (∀ argument ∈ left, (Category.expression, argument) ∈ kind.slots) ∧
    Visits limit origin results node kind passed left before current) ?_ rest [] state
    ⟨done, slots, visits⟩).weaken ?_
  · rintro found head tail current ⟨passed, slots, visits⟩
    refine (yields_visit infers visits (slots head List.mem_cons_self)).weaken ?_
    rintro type final ⟨visits, -, -⟩
    exact ⟨passed ++ [head], fun argument member => slots argument (List.mem_cons_of_mem _ member),
      visits⟩
  · rintro types final ⟨passed, -, visits⟩
    exact visits.whole

/-- The name of a variable. -/
theorem judged_variable {name : String}
    (visits : Visits limit origin results node (.member name) [] [] before state) :
    Yields (variableType environment node name) state fun type final =>
      Judged limit origin results node (.member name) type before final := by
  have judged : ∀ own, Judged limit origin results node (.member name) own before state :=
    fun own => judged_plain visits fun _ => trivial
  unfold variableType
  rw [yields_bind, yields_scopes]
  split
  · exact judged _
  · rw [yields_bind]
    exact yields_report visits.sound visits.node_spanned fun final reported =>
      (judged _).reported reported

theorem judged_member_access {owner : NodeId} {name : String}
    (infers : Infers limit origin results node.index infer)
    (visits : Visits limit origin results node (.memberAccess owner name) [] [owner] before state) :
    Yields (memberAccess environment infer node owner name) state fun type final =>
      Judged limit origin results node (.memberAccess owner name) type before final := by
  unfold memberAccess
  rw [yields_bind]
  refine (yields_visit infers visits (by simp [NodeKind.slots])).weaken ?_
  rintro type visited ⟨visits, -, -⟩
  have judged : ∀ own, Judged limit origin results node (.memberAccess owner name) own before
      visited := fun own => judged_plain visits fun _ => trivial
  cases type with
  | none => exact judged _
  | some type =>
      simp only
      split
      · exact judged _
      · rw [yields_bind]
        exact yields_report visits.sound visits.node_spanned fun final reported =>
          (judged _).reported reported

/-- An index or a length is checked, in a node that asks nothing else. -/
theorem judged_check_index {type : Option Ty}
    (visits : Visits limit origin results node kind kind.children [] before state)
    (slot : (Category.expression, child) ∈ kind.slots) (typed : state.type? child = type)
    (asks : ∀ (change : NodeId → NodeId) (types : NodeId → Option Ty) (own : Option Ty),
      IfKnown (types (change child)) (· = .int) → (kind.map change).Obeys types own results) :
    Yields (checkIndex environment node child type) state fun _ final =>
      ∀ own, Judged limit origin results node kind own before final := by
  have member := NodeKind.slot_is_child slot
  have plain : IfKnown (state.type? child) (· = .int) →
      ∀ own, Judged limit origin results node kind own before state := by
    intro known own
    refine judged_plain visits fun _ => ?_
    have obeys := asks id state.type? own known
    rw [NodeKind.map_id] at obeys
    exact obeys
  unfold checkIndex
  split
  · exact plain (by rw [typed]; exact if_known_none _)
  · rename_i type
    split
    · rename_i same
      exact plain (by rw [typed]; exact if_known_some same)
    · split
      · rename_i widens
        refine yields_widen visits slot typed widens fun cast final widened own => ?_
        refine judged_widened visits slot widened fun _ => asks _ _ _ ?_
        rw [NodeKind.swap, if_pos rfl, widened.type]
        exact if_known_some rfl
      · exact yields_report visits.sound (visits.child_spanned member) fun final reported =>
          judged_error visits reported rfl

theorem judged_index_access {target index : NodeId}
    (infers : Infers limit origin results node.index infer)
    (visits : Visits limit origin results node (.indexAccess target index) [] [target, index]
      before state) :
    Yields (indexAccess environment infer node target index) state fun type final =>
      Judged limit origin results node (.indexAccess target index) type before final := by
  unfold indexAccess
  rw [yields_bind]
  refine (yields_visit infers visits (by simp [NodeKind.slots])).weaken ?_
  rintro targetType first ⟨visits, -, -⟩
  rw [yields_bind]
  refine (yields_visit infers visits (by simp [NodeKind.slots])).weaken ?_
  rintro indexType second ⟨visits, typed, -⟩
  rw [yields_bind]
  refine (judged_check_index visits (by simp [NodeKind.slots]) typed
    fun _ _ _ known => known).weaken fun _ checked judged => ?_
  split
  · exact judged _
  · exact judged _
  · rw [yields_bind]
    exact yields_report (judged none).sound (judged none).node_spanned fun final reported =>
      (judged _).reported reported
  · rw [yields_bind]
    exact yields_report (judged none).sound
      ((judged none).child_spanned (by simp [NodeKind.children])) fun final reported =>
      (judged _).reported reported

theorem judged_new_array {element length : NodeId}
    (infers : Infers limit origin results node.index infer)
    (visits : Visits limit origin results node (.newArray element length) [] [element, length]
      before state) :
    Yields (newArray environment infer node element length) state fun type final =>
      Judged limit origin results node (.newArray element length) type before final := by
  unfold newArray
  rw [yields_bind]
  refine (yields_visit_type visits (by simp [NodeKind.slots])).weaken ?_
  rintro elementType first ⟨visits, -, -⟩
  rw [yields_bind]
  refine (yields_visit infers visits (by simp [NodeKind.slots])).weaken ?_
  rintro lengthType second ⟨visits, typed, -⟩
  rw [yields_bind]
  exact (judged_check_index visits (by simp [NodeKind.slots]) typed
    fun _ _ _ known => known).weaken fun _ checked judged => judged _

theorem judged_call {name : String} {arguments : List NodeId}
    (infers : Infers limit origin results node.index infer)
    (visits : Visits limit origin results node (.call name arguments) [] arguments before state) :
    Yields (call environment infer node name arguments) state fun type final =>
      Judged limit origin results node (.call name arguments) type before final := by
  unfold call
  rw [yields_bind, yields_get, yields_bind]
  refine (yields_visit_all infers visits fun argument member => by
    simp [NodeKind.slots, member]).weaken fun types visited visits => ?_
  have judged : ∀ own, Judged limit origin results node (.call name arguments) own before
      visited := fun own => judged_plain visits fun _ => trivial
  rw [yields_bind, yields_get]
  simp only
  split
  · exact judged _
  · split
    · rw [yields_bind]
      exact yields_report visits.sound visits.node_spanned fun final reported =>
        (judged _).reported reported
    · exact judged _

theorem judged_construct {type : NodeId} {arguments : List NodeId}
    (infers : Infers limit origin results node.index infer)
    (visits : Visits limit origin results node (.construct type arguments) [] (type :: arguments)
      before state) :
    Yields (do
      let constructed ← resolveType environment type
      arguments.forM fun argument => do let _ ← infer argument
      return constructed) state fun own final =>
      Judged limit origin results node (.construct type arguments) own before final := by
  rw [yields_bind]
  refine (yields_visit_type visits (by simp [NodeKind.slots])).weaken ?_
  rintro own first ⟨visits, -, -⟩
  rw [yields_bind]
  refine (yields_forM _ (fun left current => ∃ passed,
    (∀ argument ∈ left, argument ∈ arguments) ∧
    Visits limit origin results node (.construct type arguments) passed left before current)
    ?_ arguments first ⟨_, fun _ member => member, visits⟩).weaken ?_
  · rintro head tail current ⟨passed, subset, visits⟩
    have slot : (Category.expression, head) ∈ (NodeKind.construct type arguments).slots := by
      simp [NodeKind.slots, subset head List.mem_cons_self]
    rw [yields_bind]
    refine (yields_visit infers visits slot).weaken ?_
    rintro _ final ⟨visits, -, -⟩
    exact ⟨_, fun argument member => subset argument (List.mem_cons_of_mem _ member), visits⟩
  · rintro _ final ⟨passed, -, visits⟩
    exact judged_plain visits.whole fun _ => trivial

theorem judged_unary {operator : UnaryOperator} {operand : NodeId}
    (infers : Infers limit origin results node.index infer)
    (visits : Visits limit origin results node (.unary operator operand) [] [operand]
      before state) :
    Yields (unary environment infer node operator operand) state fun type final =>
      Judged limit origin results node (.unary operator operand) type before final := by
  unfold unary
  rw [yields_bind]
  refine (yields_visit infers visits (by simp [NodeKind.slots])).weaken ?_
  rintro type visited ⟨visits, typed, -⟩
  cases type with
  | none =>
      refine judged_plain visits fun _ => ?_
      simp only [NodeKind.Obeys, typed]
      exact if_known_none _
  | some type =>
      have judged : ∀ own, operator.result type = (own, true) →
          Judged limit origin results node (.unary operator operand) own before visited := by
        intro own taken
        refine judged_plain visits fun _ => ?_
        simp only [NodeKind.Obeys, typed]
        refine if_known_some ?_
        by_cases negation : operator = .not
        · subst negation
          simp only [UnaryOperator.result, Prod.mk.injEq, beq_iff_eq] at taken
          rw [if_pos rfl]
          exact ⟨taken.2, taken.1.symm⟩
        · rw [if_neg negation]
          have numeric : (if type.isNumeric then (some type, true) else (none, false)) =
              (own, true) := by
            cases operator <;> first | exact absurd rfl negation | exact taken
          split at numeric
          · rename_i fits
            cases numeric
            exact ⟨fits, rfl⟩
          · cases numeric
      simp only
      cases taken : operator.result type with
      | mk result accepted =>
          cases accepted with
          | true => exact judged result taken
          | false =>
              rw [Bool.not_false, if_pos rfl, yields_bind]
              exact yields_report visits.sound visits.node_spanned fun final reported =>
                judged_error visits reported rfl _

/-- Operands whose types are not both known leave little to ask. -/
theorem judged_unknown_operands {operator : BinaryOperator} {left right : NodeId}
    (visits : Visits limit origin results node (.binary operator left right) [left, right] []
      before state)
    (unknown : operator.category.operandTypes? (state.type? left) (state.type? right) = none)
    (common : Option Ty) :
    Judged limit origin results node (.binary operator left right)
      (if operator.category.isPredicate then some .bool else common) before state := by
  refine judged_plain visits fun _ => ⟨fun predicate => if_pos predicate, ?_, ?_⟩
  · intro logical
    rw [logical] at unknown
    cases unknown
  · intro first knownFirst second knownSecond
    rw [knownFirst, knownSecond] at unknown
    cases category : operator.category <;> rw [category] at unknown <;> cases unknown

/-- The types that a rule is applied to are those of the operands. -/
theorem operand_types_known {category : OperatorCategory} {left right : Option Ty}
    {first second : Ty} (types : category.operandTypes? left right = some (first, second)) :
    IfKnown left (· = first) ∧ IfKnown right (· = second) := by
  have simple : (left.bind fun left => right.map fun right => (left, right)) =
      some (first, second) → IfKnown left (· = first) ∧ IfKnown right (· = second) := by
    intro bound
    cases left with
    | none => cases bound
    | some left =>
        cases right with
        | none => cases bound
        | some right =>
            cases bound
            exact ⟨if_known_some rfl, if_known_some rfl⟩
  cases category with
  | logical =>
      cases types
      cases left <;> cases right <;>
        first
        | exact ⟨if_known_none _, if_known_none _⟩
        | exact ⟨if_known_some rfl, if_known_none _⟩
        | exact ⟨if_known_none _, if_known_some rfl⟩
        | exact ⟨if_known_some rfl, if_known_some rfl⟩
  | _ => exact simple types

/-- Operands that are widened are of known types. -/
theorem operand_types_of_unify {category : OperatorCategory} {left right : Option Ty}
    {first second : Ty} (types : category.operandTypes? left right = some (first, second))
    (unify : category.operandFit first second = .unify) :
    left = some first ∧ right = some second ∧ category ≠ .logical := by
  have solid : category ≠ .logical := by
    rintro rfl
    simp only [OperatorCategory.operandFit] at unify
    split at unify <;> cases unify
  have bound : (left.bind fun left => right.map fun right => (left, right)) =
      some (first, second) := by
    cases category <;> first | exact absurd rfl solid | exact types
  cases left with
  | none => cases bound
  | some left =>
      cases right with
      | none => cases bound
      | some right =>
          cases bound
          exact ⟨rfl, rfl, solid⟩

theorem obeys_of_fitting {operator : BinaryOperator} {left right : NodeId}
    {types : NodeId → Option Ty} {first second : Ty}
    (known : operator.category.operandTypes? (types left) (types right) = some (first, second))
    (fit : operator.category.operandFit first second = .fit) :
    (NodeKind.binary operator left right).Obeys types
      (if operator.category.isPredicate then some .bool else some first) results := by
  obtain ⟨leftKnown, rightKnown⟩ := operand_types_known known
  have obeys := OperatorCategory.obeys_of_fit fit
  refine ⟨fun predicate => if_pos predicate, ?_, ?_⟩
  · intro logical
    rw [logical] at obeys
    obtain ⟨rfl, rfl⟩ : first = .bool ∧ second = .bool := obeys
    exact ⟨leftKnown, rightKnown⟩
  · intro leftType sameLeft rightType sameRight
    rw [leftKnown leftType sameLeft, rightKnown rightType sameRight]
    split
    · rename_i predicate
      exact OperatorCategory.obeys_of_predicate predicate obeys
    · exact obeys

/-- Operands that have come to a common type. -/
theorem obeys_of_common {operator : BinaryOperator} {left right : NodeId}
    {types : NodeId → Option Ty} {first second common : Ty}
    (unify : operator.category.operandFit first second = .unify)
    (one : common = first ∨ common = second) (logical : operator.category ≠ .logical)
    (leftType : types left = some common) (rightType : types right = some common) :
    (NodeKind.binary operator left right).Obeys types
      (if operator.category.isPredicate then some .bool else some common) results := by
  have obeys := OperatorCategory.obeys_of_unify unify one
  refine ⟨fun predicate => if_pos predicate, fun same => absurd same logical, ?_⟩
  rw [leftType, rightType]
  refine if_known_some (if_known_some ?_)
  split
  · rename_i predicate
    exact OperatorCategory.obeys_of_predicate predicate obeys
  · exact obeys

theorem judged_unify {operator : BinaryOperator} {left right : NodeId} {first second : Ty}
    (visits : Visits limit origin results node (.binary operator left right) [left, right] []
      before state)
    (leftType : state.type? left = some first) (rightType : state.type? right = some second)
    (joins : operator.category.operandFit first second = .unify)
    (logical : operator.category ≠ .logical) :
    Yields (unify environment node operator left right first second) state fun common final =>
      Judged limit origin results node (.binary operator left right)
        (if operator.category.isPredicate then some .bool else common) before final := by
  have distinct : left ≠ right := by
    simpa [NodeKind.children] using visits.distinct
  unfold unify promote
  split
  · rename_i promoted
    split at promoted
    · rename_i same
      subst same
      exact judged_plain visits fun _ =>
        obeys_of_common joins (Or.inl rfl) logical leftType rightType
    · split at promoted
      · cases promoted
      · split at promoted <;> cases promoted
  · rename_i target promoted
    split at promoted
    · cases promoted
    · split at promoted
      · rename_i widens
        cases promoted
        rw [yields_bind]
        refine yields_widen visits (by simp [NodeKind.slots]) leftType widens
          fun cast final widened => ?_
        refine judged_widened visits (by simp [NodeKind.slots]) widened fun _ => ?_
        simp only [NodeKind.map, NodeKind.swap, if_neg (Ne.symm distinct)]
        refine obeys_of_common joins (Or.inr rfl) logical widened.type ?_
        rw [visits.types_widened (by simp [NodeKind.children]) widened]
        exact rightType
      · split at promoted <;> cases promoted
  · rename_i target promoted
    split at promoted
    · cases promoted
    · split at promoted
      · cases promoted
      · split at promoted
        · rename_i widens
          cases promoted
          rw [yields_bind]
          refine yields_widen visits (by simp [NodeKind.slots]) rightType widens
            fun cast final widened => ?_
          refine judged_widened visits (by simp [NodeKind.slots]) widened fun _ => ?_
          simp only [NodeKind.map, NodeKind.swap, if_neg distinct]
          refine obeys_of_common joins (Or.inl rfl) logical ?_ widened.type
          rw [visits.types_widened (by simp [NodeKind.children]) widened]
          exact leftType
        · cases promoted
  · rw [yields_bind]
    exact yields_report visits.sound visits.node_spanned fun final reported =>
      judged_error visits reported rfl _

theorem judged_binary {operator : BinaryOperator} {left right : NodeId}
    (infers : Infers limit origin results node.index infer)
    (visits : Visits limit origin results node (.binary operator left right) [] [left, right]
      before state) :
    Yields (binary environment infer node operator left right) state fun type final =>
      Judged limit origin results node (.binary operator left right) type before final := by
  unfold binary
  rw [yields_bind]
  refine (yields_visit infers visits (by simp [NodeKind.slots])).weaken ?_
  rintro leftType first ⟨visits, leftTyped, -⟩
  rw [yields_bind]
  refine (yields_visit infers visits (by simp [NodeKind.slots])).weaken ?_
  rintro rightType second ⟨visits, rightTyped, kept, -⟩
  have leftTyped : second.type? left = leftType := (kept left (by simp)).trans leftTyped
  subst leftTyped
  subst rightTyped
  rw [yields_bind]
  change Yields _ second fun common final =>
    Judged limit origin results node (.binary operator left right)
      (if operator.category.isPredicate then some .bool else common) before final
  unfold commonType
  split
  · rename_i unknown
    exact judged_unknown_operands visits unknown none
  · rename_i firstType secondType known
    split
    · rename_i fit
      exact judged_plain visits fun _ => obeys_of_fitting known fit
    · rename_i unify
      obtain ⟨leftKnown, rightKnown, logical⟩ := operand_types_of_unify known unify
      exact judged_unify visits leftKnown rightKnown unify logical
    · rw [yields_bind]
      exact yields_report visits.sound visits.node_spanned fun final reported =>
        judged_error visits reported rfl _

/-- A cast that has noted the type it starts from. -/
theorem judged_noted {target inner : NodeId} {source noted own : Option Ty} {middle : InferenceState}
    (visits : Visits limit origin results node (.cast target inner source) [target, inner] []
      before middle)
    (rewrites : Rewrites limit origin results (fun id => id = node)
      (Covered origin [target, inner] before middle) middle state)
    (found : state.kind? node = some (.cast target inner noted))
    (obeys : state.Clean →
      (NodeKind.cast target inner noted).Obeys state.type? own results) :
    Judged limit origin results node (.cast target inner source) own before state := by
  refine ⟨middle, .cast target inner noted, visits, rewrites, ⟨found, ?_, ?_, ?_, obeys⟩, ?_⟩
  · refine .parsed visits.found (.cast (Or.inl rfl) (Or.inl rfl)) ?_
    intro operator left right same
    cases same
  · exact visits.joined rewrites.spans fun child member => ⟨child, member, rfl⟩
  · intro child member
    rw [rewrites.spans child (visits.work.settled.bounded (Visits.child_covered member))]
    exact visits.child_spanned member
  · intro child member
    exact Or.inl (Visits.child_covered member)

theorem judged_cast {target inner : NodeId} {source : Option Ty}
    (infers : Infers limit origin results node.index infer)
    (visits : Visits limit origin results node (.cast target inner source) [] [target, inner]
      before state) :
    Yields (cast environment infer node target inner) state fun type final =>
      Judged limit origin results node (.cast target inner source) type before final := by
  unfold cast
  rw [yields_bind]
  refine (yields_visit_type visits (by simp [NodeKind.slots])).weaken ?_
  rintro targetType first ⟨visits, known, unknown, -⟩
  rw [yields_bind]
  refine (yields_visit infers visits (by simp [NodeKind.slots])).weaken ?_
  rintro sourceType second ⟨later, typed, kept, cleaner⟩
  have targetKept : second.type? target = first.type? target := kept target (by simp)
  have unclean : targetType = none → ¬ second.Clean := fun none clean =>
    unknown none (cleaner clean)
  have distinct : target ≠ node ∧ inner ≠ node := by
    constructor <;>
    · rintro rfl
      exact later.node_uncovered (Visits.child_covered (by simp))
  rw [yields_bind]
  unfold setCastSource
  rw [yields_bind, yields_kind, later.node_same.1]
  simp only
  rw [yields_set_kind]
  have rewrites := rewrites_set_kind later.sound later.work.settled later.node_uncovered
    (.cast target inner sourceType)
  have bound : node.index < second.size :=
    Nat.lt_of_lt_of_le (Arena.kind_bound later.found) later.sound.size
  generalize final : second.withArena
    (second.tree.arena.setKind node (.cast target inner sourceType)) = noted at rewrites
  have found : noted.kind? node = some (.cast target inner sourceType) := by
    rw [← final]
    exact Arena.kind_set_kind bound _
  have types : ∀ id, id ≠ node → noted.type? id = second.type? id := by
    intro id apart
    rw [← final]
    refine Arena.type_of_node ?_
    change (second.tree.arena.setKind node _).node? id = _
    rw [Arena.node_set_kind, if_neg (Ne.symm apart)]
  have innerType : noted.type? inner = sourceType := (types inner distinct.2).trans typed
  have spanned : (noted.span? node).isSome := by
    rw [rewrites.spans node bound]
    exact later.node_spanned
  have judged : (∀ type, targetType = some type → IfKnown sourceType (·.castsTo type = true)) →
      Judged limit origin results node (.cast target inner source) targetType before noted := by
    intro casts
    refine judged_noted later rewrites found fun clean => ⟨innerType.symm, ?_⟩
    cases targetType with
    | none => exact absurd (rewrites.leaves.clean clean) (unclean rfl)
    | some type =>
        have targetTyped : noted.type? target = some type :=
          (types target distinct.1).trans (targetKept.trans (known type rfl).1)
        rw [targetTyped, innerType]
        exact if_known_some ⟨rfl, casts type rfl⟩
  cases sourceType with
  | none => exact judged fun _ _ => if_known_none _
  | some from' =>
      cases targetType with
      | none => exact judged fun _ same => absurd same (by simp)
      | some type =>
          simp only
          cases allowed : from'.castsTo type with
          | true =>
              refine judged fun _ same => ?_
              cases same
              exact if_known_some allowed
          | false =>
              rw [Bool.not_false, if_pos rfl, yields_bind]
              refine yields_report rewrites.sound spanned fun last reported => ?_
              have still : last.kind? node = some (.cast target inner (some from')) := by
                unfold InferenceState.kind?
                rw [reported.tree]
                exact found
              exact judged_noted later (rewrites.trans (.of_report rewrites.settled reported)
                fun _ same _ => same) still fun clean => absurd clean (reported.unclean rfl)

theorem judged_expression (infers : Infers limit origin results node.index infer)
    (visits : Visits limit origin results node kind [] kind.children before state)
    (expression : kind.isExpression = true) :
    Yields (anyExpression environment infer node) state fun type final =>
      Judged limit origin results node kind type before final := by
  unfold anyExpression
  rw [yields_bind, yields_kind, visits.node_same.1]
  cases kind with
  | literal value => exact judged_plain visits fun _ => trivial
  | member name => exact judged_variable visits
  | memberAccess owner name => exact judged_member_access infers visits
  | indexAccess target index => exact judged_index_access infers visits
  | binary operator left right => exact judged_binary infers visits
  | unary operator operand => exact judged_unary infers visits
  | call name arguments => exact judged_call infers visits
  | construct type arguments => exact judged_construct infers visits
  | newArray element length => exact judged_new_array infers visits
  | cast target inner source => exact judged_cast infers visits
  | _ => cases expression

end Rules

theorem infers_within (constructed : origin.Constructed limit) (budget : Nat) :
    Infers limit origin results budget (expressionWithin environment budget) := by
  induction budget with
  | zero => exact fun node _ bound => absurd bound (Nat.not_lt_zero _)
  | succ budget ih =>
      intro node state bound admitted sound untouched
      obtain ⟨kind, found, expression⟩ := admitted
      have infers : Infers limit origin results node.index (expressionWithin environment budget) :=
        fun child state below => ih child state (by omega)
      unfold expressionWithin
      rw [yields_bind]
      refine (judged_expression infers (.begin constructed found sound untouched) expression).weaken
        fun type judgedState judged => ?_
      rw [yields_bind]
      exact yields_typed judged

theorem yields_expression (results : Option Ty → Prop) {node : NodeId} {state : InferenceState}
    (constructed : origin.Constructed limit) (admitted : origin.arena.Admitted .expression node)
    (sound : Sound limit origin state) (untouched : Untouched origin (Below origin [node]) state) :
    Yields (expression environment node) state fun type final =>
      Worked limit origin results [node] state final ∧ final.type? node = type := by
  unfold expression
  rw [yields_bind, yields_get]
  obtain ⟨kind, found, -⟩ := id admitted
  refine infers_within constructed _ node state ?_ admitted sound untouched
  have bound := Arena.kind_bound found
  have size : origin.arena.size ≤ state.tree.arena.size := sound.size
  omega

end ModuleLang.Inference
