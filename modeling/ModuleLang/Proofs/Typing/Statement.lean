import ModuleLang.Proofs.Typing.Declaring
import ModuleLang.Proofs.Typing.Expression

/-!
Statements. A statement is worked on as an expression is, and the node that takes
its place stands for it. The result types of the enclosing functions are those
that the state has for the current one.
-/

namespace ModuleLang.Inference

variable {limit : Position} {origin : SourceTree} {results : Option Ty → Prop}
  {environment : Environment}

/-- A type that was found for a node: the one that it has, unless an error hides
it. -/
def Tells (state : InferenceState) (node : NodeId) (type : Option Ty) : Prop :=
  state.type? node = type ∨ (type = none ∧ ¬ state.Clean)

theorem Tells.known {state : InferenceState} {node : NodeId} {found : Ty}
    (tells : Tells state node (some found)) : state.type? node = some found := by
  obtain same | ⟨hidden, -⟩ := tells
  · exact same
  · cases hidden

theorem Tells.unknown {state : InferenceState} {node : NodeId} {holds : Ty → Prop}
    (tells : Tells state node none) (clean : state.Clean) : IfKnown (state.type? node) holds := by
  obtain same | ⟨-, unclean⟩ := tells
  · rw [same]
    exact if_known_none holds
  · exact absurd clean unclean

theorem Tells.later {before after : InferenceState} {node : NodeId} {type : Option Ty}
    (tells : Tells before node type) (same : after.type? node = before.type? node)
    (cleaner : after.Clean → before.Clean) : Tells after node type := by
  obtain equal | ⟨hidden, unclean⟩ := tells
  · exact Or.inl (same.trans equal)
  · exact Or.inr ⟨hidden, fun clean => unclean (cleaner clean)⟩

section Names

variable {state : InferenceState}

theorem yields_report_duplicate {earlier later : NodeId} {name : String}
    (sound : Sound limit origin state) (first : (state.span? earlier).isSome)
    (second : (state.span? later).isSome) (changed : Region) :
    Yields (reportDuplicate environment earlier later name) state fun _ final =>
      Noted limit origin changed state final := by
  unfold reportDuplicate
  refine (yields_forM _ (fun left current => Noted limit origin changed state current ∧
    ∀ node ∈ left, (state.span? node).isSome) ?_ _ state ⟨⟨rfl, sound, .refl _ _⟩, ?_⟩).weaken
    fun _ final kept => kept.1
  · rintro node rest current ⟨noted, spanned⟩
    have left : ∀ node ∈ rest, (state.span? node).isSome :=
      fun node member => spanned node (List.mem_cons_of_mem _ member)
    rw [yields_bind, yields_get]
    split
    · rw [yields_bind, yields_modify]
      have marked : Noted limit origin changed current
          { current with duplicates := node :: current.duplicates } :=
        noted_of_scopes noted.sound rfl rfl rfl fun _ member => Or.inl member
      refine yields_report marked.sound ?_ fun final reported =>
        ⟨(noted.trans marked).trans (reported.noted changed), left⟩
      unfold InferenceState.span?
      rw [marked.tree, noted.tree]
      exact spanned node List.mem_cons_self
    · exact ⟨noted, left⟩
  · intro node member
    simp only [List.mem_cons, List.not_mem_nil, or_false] at member
    obtain rfl | rfl := member
    · exact first
    · exact second

theorem noted_declare {node : NodeId} (sound : Sound limit origin state)
    (known : (state.span? node).isSome) (name : String) (type : Option Ty) (kind : BindingKind) :
    Noted limit origin (fun id => id = node) state
      { state with scopes := state.scopes.declare name ⟨type, node, kind⟩ } := by
  refine noted_of_scopes sound rfl rfl rfl fun id member => ?_
  obtain rfl | old := Scopes.nodes_declare member
  · exact Or.inr ⟨rfl, known⟩
  · exact Or.inl old

theorem yields_define {definition : NodeId} {name : String} {type : Option Ty}
    (sound : Sound limit origin state) (known : (state.span? definition).isSome) :
    Yields (define environment definition name type) state fun _ final =>
      Noted limit origin (fun id => id = definition) state final := by
  unfold define
  rw [yields_bind, yields_scopes]
  split
  · rename_i earlier found
    refine yields_report_duplicate sound ?_ known _
    rw [Option.orElse_eq_orElse, Option.orElse_eq_or] at found
    obtain visible | ⟨-, nested⟩ := Option.or_eq_some_iff.mp found
    · obtain ⟨binding, looked, rfl⟩ := Option.map_eq_some_iff.mp visible
      exact sound.bound _ (Scopes.node_of_lookup looked)
    · exact sound.bound _ (Scopes.node_of_nested nested)
  · rw [yields_on_scopes]
    exact noted_declare sound known name type .inner

end Names

section Returns

variable {node child : NodeId} {before state : InferenceState}

theorem yields_predicate {condition : NodeId} (results : Option Ty → Prop)
    (constructed : origin.Constructed limit)
    (admitted : origin.arena.Admitted .expression condition) (sound : Sound limit origin state)
    (untouched : Untouched origin (Below origin [condition]) state) :
    Yields (predicate environment condition) state fun _ final =>
      Worked limit origin results [condition] state final ∧
      (final.Clean → IfKnown (final.type? condition) (· = .bool)) := by
  unfold predicate
  rw [yields_bind]
  refine (yields_expression results constructed admitted sound untouched).weaken ?_
  rintro type middle ⟨work, typed⟩
  have plain : IfKnown type (· = .bool) → Worked limit origin results [condition] state middle ∧
      (middle.Clean → IfKnown (middle.type? condition) (· = .bool)) := by
    intro known
    refine ⟨work, fun _ => ?_⟩
    rw [typed]
    exact known
  cases type with
  | none => exact plain (if_known_none _)
  | some type =>
      simp only
      split
      · obtain ⟨kind, found, -⟩ := admitted
        have old : condition.index < origin.arena.size := Arena.kind_bound found
        have spanned : (middle.span? condition).isSome := by
          rw [work.spans condition (by simp)]
          exact (constructed.recorded condition).mpr old
        refine yields_report work.sound spanned fun final reported => ⟨?_, fun clean =>
          absurd clean (reported.unclean rfl)⟩
        refine work.rewritten (.of_report work.settled reported) (fun _ inside _ => inside) ?_
        intro child member
        rw [List.mem_singleton] at member
        subst member
        exact Nat.lt_of_lt_of_le old work.sound.size
      · rename_i fits
        exact plain (if_known_some (not_not.mp fits))

theorem judged_jump {keyword : Keyword} {kind : NodeKind NodeId}
    (visits : Visits limit origin results node kind kind.children [] before state)
    (asks : ∀ types own, kind.Obeys types own results) :
    Yields (jump environment node keyword) state fun _ final =>
      ∀ own, Judged limit origin results node kind own before final := by
  unfold jump
  rw [yields_bind, yields_get]
  split
  · exact yields_report visits.sound visits.node_spanned fun final reported own =>
      judged_error visits reported rfl own
  · exact fun own => judged_plain visits fun _ => asks _ _

theorem judged_return_value {value : NodeId} {found expected : Ty}
    (visits : Visits limit origin results node (.returnFrom (some value)) [value] [] before state)
    (only : ∀ result, results result → result = some expected) (solid : expected ≠ .void)
    (typed : state.type? value = some found) :
    Yields (returnValue environment node value found expected) state fun _ final =>
      ∀ own, Judged limit origin results node (.returnFrom (some value)) own before final := by
  have obeys : ∀ (returned : NodeId) (types : NodeId → Option Ty) (own : Option Ty),
      IfKnown (types returned) (fun value => assignability value expected = .exact) →
      (NodeKind.returnFrom (some returned)).Obeys types own results := by
    intro returned types own known result member
    rw [only result member]
    exact if_known_some ⟨solid, known⟩
  unfold returnValue
  split
  · rename_i fits
    refine fun own => judged_plain visits fun _ => obeys _ _ own ?_
    rw [typed]
    exact if_known_some fits
  · rename_i widens
    refine yields_widen visits (by simp [NodeKind.slots]) typed
      (widens_of_assignability widens) fun cast final widened own => ?_
    refine judged_widened visits (by simp [NodeKind.slots]) widened fun _ => ?_
    simp only [NodeKind.map, Option.map_some, NodeKind.swap, if_true]
    refine obeys _ _ own ?_
    rw [widened.type]
    exact if_known_some (assignability_self expected)
  · exact yields_report visits.sound visits.node_spanned fun final reported own =>
      judged_error visits reported rfl own

theorem judged_return {value : Option NodeId}
    (visits : Visits limit origin results node (.returnFrom value) [] value.toList before state)
    (only : ∀ result, results result → result = state.result) :
    Yields (returnFrom environment node value) state fun _ final =>
      ∀ own, Judged limit origin results node (.returnFrom value) own before final := by
  unfold returnFrom
  rw [yields_bind]
  cases value with
  | none =>
      rw [Option.mapM_none, yields_pure, yields_bind, yields_get]
      have obeys : IfKnown state.result (· = .void) → ∀ own,
          Judged limit origin results node (.returnFrom none) own before state := by
        intro known own
        refine judged_plain visits fun _ result member => ?_
        rw [only result member]
        exact known
      split
      · rename_i _ unknown
        exact obeys (by rw [unknown]; exact if_known_none _)
      · rename_i void _
        exact obeys (by rw [void]; exact if_known_some rfl)
      · exact yields_report visits.sound visits.node_spanned fun final reported own =>
          judged_error visits reported rfl own
      · rename_i same
        cases same
      · rename_i same
        cases same
  | some value =>
      rw [Option.mapM_some, yields_map]
      have slot : (Category.expression, value) ∈ (NodeKind.returnFrom (some value)).slots := by
        simp [NodeKind.slots]
      have admitted := visits.constructed.admitted visits.found _ slot
      refine (yields_expression results visits.constructed admitted visits.sound
        visits.next_untouched).weaken ?_
      rintro type middle ⟨work, typed⟩
      have visits := visits.next work
      rw [yields_bind, yields_get, work.leaves.result]
      have error : ∀ {kind : DiagnosticKind} {final}, Reported limit origin kind middle final →
          kind.level = .error → ∀ own,
          Judged limit origin results node (.returnFrom (some value)) own before final :=
        fun reported level own => judged_error visits reported level own
      split
      · rename_i unknown
        refine fun own => judged_plain visits fun _ result member => ?_
        rw [only result member, unknown]
        exact if_known_none _
      · rename_i same
        cases same
      · rename_i same
        cases same
      · exact yields_report visits.sound visits.node_spanned fun final reported =>
          error reported rfl
      · rename_i expected other solid known same
        cases same
        have void : expected ≠ .void := by
          rintro rfl
          exact solid rfl
        cases type with
        | none =>
            refine fun own => judged_plain visits fun _ result member => ?_
            rw [only result member, known, typed]
            exact if_known_some ⟨void, if_known_none _⟩
        | some found =>
            refine judged_return_value visits (fun result member => ?_) void typed
            rw [only result member, known]

end Returns

section Assignments

variable {node target value : NodeId} {before state : InferenceState}

theorem level_of_mismatch (operator : AssignOperator) (source target : Ty) :
    (mismatch operator source target).level = .error := by
  unfold mismatch
  split <;> rfl

theorem judged_store {operator : AssignOperator} {targetType valueType : Option Ty}
    (visits : Visits limit origin results node (.assign operator target value) [target, value] []
      before state)
    (targetTyped : state.type? target = targetType) (told : Tells state value valueType) :
    Yields (store environment node operator value targetType valueType) state fun _ final =>
      ∀ own, Judged limit origin results node (.assign operator target value) own before final := by
  have distinct : target ≠ value := by
    simpa [NodeKind.children] using visits.distinct
  unfold store
  cases targetType with
  | none =>
      refine fun own => judged_plain visits fun _ => ?_
      simp only [NodeKind.Obeys, targetTyped]
      exact if_known_none _
  | some targetType =>
      cases valueType with
      | none =>
          refine fun own => judged_plain visits fun clean => ?_
          simp only [NodeKind.Obeys, targetTyped]
          exact if_known_some (told.unknown clean)
      | some valueType =>
          have obeys : ∀ (types : NodeId → Option Ty) (assigned : NodeId) (type : Ty) own,
              types target = some targetType → types assigned = some type →
              operator.Obeys targetType type →
              (NodeKind.assign operator target assigned).Obeys types own results := by
            intro types assigned type own first second met
            simp only [NodeKind.Obeys, first, second]
            exact if_known_some (if_known_some met)
          simp only
          split
          · exact yields_report visits.sound visits.node_spanned fun final reported own =>
              judged_error visits reported rfl own
          · rename_i taken
            have taken : operator.takes targetType valueType = true := by simpa using taken
            split
            · rename_i fits
              exact fun own => judged_plain visits fun _ => obeys _ _ _ own targetTyped told.known
                (AssignOperator.obeys_of_exact taken fits)
            · rename_i widens
              refine yields_widen visits (by simp [NodeKind.slots]) told.known
                (widens_of_assignability widens) fun cast final widened own => ?_
              refine judged_widened visits (by simp [NodeKind.slots]) widened fun _ => ?_
              simp only [NodeKind.map, NodeKind.swap, if_neg distinct]
              refine obeys _ _ _ own ?_ widened.type (AssignOperator.obeys_of_widened taken)
              rw [visits.types_widened (by simp [NodeKind.children]) widened]
              exact targetTyped
            · exact yields_report visits.sound visits.node_spanned fun final reported own =>
                judged_error visits reported (level_of_mismatch _ _ _) own

/-- A statement that was worked on, with the node that takes its place. -/
structure Taken (limit : Position) (origin : SourceTree) (results : Option Ty → Prop)
    (node : NodeId) (before after : InferenceState) (now : NodeId) : Prop where
  work : Worked limit origin results [node] before after
  stands : SourceTree.Stands origin after.tree .statement node now
  covered : Covered origin [node] before after now
  place : after.span? now = origin.spans.span? node

/-- A statement that stays in its place. -/
theorem taken_self (work : Worked limit origin results [node] before state) :
    Taken limit origin results node before state node :=
  ⟨work, Or.inl rfl, Visits.child_covered (by simp), work.spans node (by simp)⟩

theorem Taken.spanned {now : NodeId} (taken : Taken limit origin results node before after now)
    (constructed : origin.Constructed limit) (old : node.index < origin.arena.size) :
    (after.span? now).isSome := by
  rw [taken.place]
  exact (constructed.recorded node).mpr old

/-- The value that a variable starts with, of a type that fits as it is. -/
structure Default (limit : Position) (origin : SourceTree) (results : Option Ty → Prop)
    (type : Ty) (span : Span) (region : Region) (before after : InferenceState) (value : NodeId) :
    Prop where
  rewrites : Rewrites limit origin results (fun _ => False) region before after
  made : Made before after value
  kind : ∃ kind, after.kind? value = some kind ∧ kind.isDefault = true
  type : ∃ found, after.type? value = some found ∧ assignability found type = .exact
  last : value.index + 1 = after.size
  place : after.span? value = some span

theorem default_of_grown {region : Region} {kind : NodeKind NodeId} {type found : Ty} {span : Span}
    (rewrites : Rewrites limit origin results (fun _ => False) region state
      (state.grown kind (some found) span)) (default : kind.isDefault = true)
    (fits : assignability found type = .exact) :
    Default limit origin results type span region state (state.grown kind (some found) span)
      ⟨state.size⟩ := by
  refine ⟨rewrites, ⟨Nat.le_refl _, ?_⟩, ⟨kind, InferenceState.kind_of_grown, default⟩,
    ⟨found, InferenceState.type_of_grown, fits⟩, InferenceState.size_grown.symm, ?_⟩
  · rw [InferenceState.size_grown]
    exact Nat.lt_succ_self _
  · rw [InferenceState.span_grown, if_pos rfl]

theorem yields_add_default {region : Region} {type : Ty} {span : Span}
    (sound : Sound limit origin state) (settled : Settled origin results region state)
    (place : state.span? node = some span) (solid : type ≠ .void) :
    Yields (addDefault type node) state fun value final =>
      Default limit origin results type span region state final value := by
  have inside := (sound.placed place).2
  have literal : ∀ literal, assignability literal.type type = .exact →
      Yields (add (.literal literal) node) state fun value final =>
        Default limit origin results type span region state final value := by
    intro literal fits
    refine yields_add sound place ?_
    exact default_of_grown (rewrites_leaf sound settled inside _ (fun _ _ => .literal literal) rfl
      fun _ _ => trivial) rfl fits
  unfold addDefault
  split
  · rename_i zero found
    refine literal zero ?_
    rw [Literal.type_of_zero? found]
    exact assignability_self _
  · rename_i name none
    rw [yields_bind]
    refine yields_add_type_ref sound place ?_
    have first : Rewrites limit origin results (fun _ => False) region state
        (state.spelled (.named name) span) :=
      rewrites_leaf sound settled inside _ (fun _ _ => .typeRef _ _) rfl fun _ _ => trivial
    have spells : (state.spelled (.named name) span).tree.arena.Spells (.named name) ⟨state.size⟩ :=
      InferenceState.spells_spelled _
    generalize middleSame : state.spelled (.named name) span = middle at first spells
    have size : middle.size = state.size + 1 := by
      rw [← middleSame, InferenceState.size_grown]
    have writtenSpan : middle.span? ⟨state.size⟩ = some span := by
      rw [← middleSame, InferenceState.span_grown, if_pos rfl]
    have still : middle.span? node = some span := by
      rw [first.spans node (sound.placed place).1]
      exact place
    refine yields_add_typed first.sound still ?_
    have fine : Fine origin results
        (middle.grown (.construct ⟨state.size⟩ []) (some (.named name)) span) ⟨middle.size⟩
        (some (.named name)) (.construct ⟨state.size⟩ []) := by
      have same : (middle.grown (.construct ⟨state.size⟩ []) (some (.named name)) span).tree.arena.node?
          ⟨state.size⟩ = middle.tree.arena.node? ⟨state.size⟩ := by
        rw [InferenceState.node_grown, if_neg (by simp [size])]
      have places : ∀ id : NodeId, id.index = state.size ∨ id.index = middle.size →
          (middle.grown (.construct ⟨state.size⟩ []) (some (.named name)) span).span? id =
            some span := by
        intro id known
        rw [InferenceState.span_grown]
        split
        · rfl
        · rcases known with known | known
          · rw [show id = ⟨state.size⟩ from NodeId.ext known]
            exact writtenSpan
          · contradiction
      refine ⟨InferenceState.kind_of_grown,
        .added first.sound.size (.construct (Arena.spells_of_node same spells)), ?_, ?_,
        fun _ => trivial⟩
      · apply SourceTree.joined_added
        simp only [NodeKind.slots, List.map_nil, List.mem_cons, List.not_mem_nil, or_false,
          forall_eq]
        exact ⟨(places _ (Or.inl rfl)).trans (places _ (Or.inr rfl)).symm,
          Or.inl ⟨sound.size, size.symm⟩⟩
      · intro child member
        simp only [NodeKind.children, List.mem_cons, List.not_mem_nil, or_false] at member
        subst member
        exact Option.isSome_of_eq_some (places _ (Or.inl rfl))
    have second := rewrites_grown first.sound first.settled inside fine (by
      intro child member
      simp only [NodeKind.children, List.mem_cons, List.not_mem_nil, or_false] at member
      subst member
      exact Or.inr ⟨Nat.le_refl _, by rw [size]; exact Nat.lt_succ_self _⟩)
    have made := default_of_grown second rfl (assignability_self (.named name))
    exact ⟨first.trans made.rewrites fun _ inside _ => inside,
      ⟨Nat.le_trans first.leaves.size made.made.1, made.made.2⟩, made.kind, made.type, made.last,
      made.place⟩
  · rename_i other foreign none
    exact literal .null (null_fits none foreign solid)

/-- A definition that is assigned its default. -/
theorem taken_default {middle valued : InferenceState} {declared : Ty} {span : Span}
    (work : Worked limit origin results [node] before middle)
    (was : ∃ type name, origin.arena.kind? node = some (.definition type name)) (stored : middle.type? node = some declared)
    (place : middle.span? node = some span)
    (default : Default limit origin results declared span (Covered origin [node] before middle)
      middle valued value) :
    Taken limit origin results node before (valued.grown (.assign .assign node value) none span)
      ⟨valued.size⟩ := by
  have old : node.index < origin.arena.size := by
    obtain ⟨type, name, known⟩ := was
    exact Arena.kind_bound known
  have covered : Covered origin [node] before middle node := Visits.child_covered (by simp)
  have bound : node.index < middle.size := work.settled.bounded covered
  have grows := default.rewrites.leaves.size
  have still : valued.span? node = some span := by
    rw [default.rewrites.spans node bound]
    exact place
  have kept : valued.type? node = some declared :=
    (Arena.type_of_node (default.rewrites.leaves.node node bound id)).trans stored
  have size : (valued.grown (.assign .assign node value) none span).size = valued.size + 1 :=
    InferenceState.size_grown
  generalize sameFinal : valued.grown (.assign .assign node value) none span = final at size
  have same : ∀ id, id.index < valued.size →
      final.tree.arena.node? id = valued.tree.arena.node? id ∧ final.span? id = valued.span? id := by
    intro id earlier
    rw [← sameFinal, InferenceState.node_grown, InferenceState.span_grown,
      if_neg (Nat.ne_of_lt earlier), if_neg (Nat.ne_of_lt earlier)]
    exact ⟨rfl, rfl⟩
  have nodeSame := same node (Nat.lt_of_lt_of_le bound grows)
  have valueSame := same value default.made.2
  have found : final.kind? ⟨valued.size⟩ = some (.assign .assign node value) := by
    rw [← sameFinal]
    exact InferenceState.kind_of_grown
  have own : final.span? ⟨valued.size⟩ = some span := by
    rw [← sameFinal, InferenceState.span_grown, if_pos rfl]
  have fine : Fine origin results final ⟨valued.size⟩ none (.assign .assign node value) := by
    obtain ⟨valueKind, valueFound, isDefault⟩ := default.kind
    refine ⟨found, .added default.rewrites.sound.size
      (.assign old was (Nat.le_trans work.sound.size default.made.1)
        ((Arena.kind_of_node valueSame.1).trans valueFound) isDefault
        (own.trans (nodeSame.2.trans still).symm)), ?_, ?_, fun _ => ?_⟩
    · apply SourceTree.joined_added
      simp only [NodeKind.slots, AssignOperator.side, List.mem_cons, List.not_mem_nil, or_false,
        forall_eq_or_imp, forall_eq]
      exact ⟨⟨(nodeSame.2.trans still).trans own.symm, Or.inr ⟨old, by simp⟩⟩,
        (valueSame.2.trans default.place).trans own.symm,
        Or.inl ⟨Nat.le_trans work.sound.size default.made.1, default.last⟩⟩
    · simp only [NodeKind.children, List.mem_cons, List.not_mem_nil, or_false, forall_eq_or_imp,
        forall_eq]
      rw [nodeSame.2, valueSame.2, still, default.place]
      exact ⟨rfl, rfl⟩
    · obtain ⟨given, type, fits⟩ := default.type
      have first : final.type? node = some declared := (Arena.type_of_node nodeSame.1).trans kept
      have second : final.type? value = some given := (Arena.type_of_node valueSame.1).trans type
      simp only [NodeKind.Obeys, first, second]
      exact if_known_some (if_known_some fits)
  rw [← sameFinal] at fine
  have added := rewrites_grown default.rewrites.sound default.rewrites.settled
    (default.rewrites.sound.placed still).2 fine (by
      simp only [NodeKind.children, List.mem_cons, List.not_mem_nil, or_false, forall_eq_or_imp,
        forall_eq]
      exact ⟨Or.inl covered, Or.inr default.made⟩)
  have whole := default.rewrites.trans added fun _ inside _ => inside
  rw [sameFinal] at whole
  refine ⟨work.rewritten whole (fun _ inside _ => inside.elim) ?_,
    Or.inr ⟨default.rewrites.sound.size, .default found⟩, Or.inr ⟨?_, ?_⟩, ?_⟩
  · intro child member
    rw [List.mem_singleton] at member
    subst member
    exact bound
  · exact Nat.le_trans work.leaves.size grows
  · rw [size]
    exact Nat.lt_succ_self _
  · rw [← sameFinal, InferenceState.span_grown, if_pos rfl, ← place]
    exact work.spans node (by simp)

theorem yields_bare_definition {written : NodeId} {name : String}
    (visits : Visits limit origin results node (.definition (some written) name) [] [written]
      before state) :
    Yields (bareDefinition environment node (some written) name) state fun now final =>
      Taken limit origin results node before final now := by
  unfold bareDefinition
  simp only
  rw [yields_bind]
  refine (yields_visit_type visits (by simp [NodeKind.slots])).weaken ?_
  rintro declared first ⟨visits, known, -⟩
  have old : node.index < origin.arena.size := Arena.kind_bound visits.found
  rw [yields_bind]
  have judged : Judged limit origin results node (.definition (some written) name) declared before
      first := judged_plain visits fun _ => trivial
  refine (yields_typed judged).weaken ?_
  rintro _ typed ⟨work, stored⟩
  rw [yields_bind]
  refine (yields_define work.sound ((taken_self work).spanned visits.constructed old)).weaken
    fun _ defined noted => ?_
  have taken := taken_self (work.noted noted)
  have stored : defined.type? node = declared := by
    unfold InferenceState.type?
    rw [noted.tree]
    exact stored
  cases declared with
  | none => exact taken
  | some declared =>
      obtain ⟨span, place⟩ := Option.isSome_iff_exists.mp
        (taken.spanned visits.constructed old)
      simp only
      rw [yields_bind]
      refine (yields_add_default taken.work.sound taken.work.settled place
        (known declared rfl).2).weaken fun value valued default => ?_
      have still : valued.span? node = some span := by
        rw [default.rewrites.spans node (taken.work.sound.placed place).1]
        exact place
      exact yields_add default.rewrites.sound still
        (taken_default taken.work ⟨_, _, visits.found⟩ stored place default)

theorem yields_visit_expression {kind : NodeKind NodeId} {child : NodeId} {done rest : List NodeId}
    (visits : Visits limit origin results node kind done (child :: rest) before state)
    (slot : (Category.expression, child) ∈ kind.slots) :
    Yields (expression environment child) state fun type final =>
      Visits limit origin results node kind (done ++ [child]) rest before final ∧
      final.type? child = type ∧ (∀ earlier ∈ done, final.type? earlier = state.type? earlier) ∧
      (final.Clean → state.Clean) := by
  have admitted := visits.constructed.admitted visits.found _ slot
  refine (yields_expression results visits.constructed admitted visits.sound
    visits.next_untouched).weaken ?_
  rintro type final ⟨work, typed⟩
  exact ⟨visits.next work, typed, visits.types_kept work, work.leaves.clean⟩

theorem yields_assigned_type {kind : NodeKind NodeId} {rest : List NodeId}
    (visits : Visits limit origin results node kind [] (value :: rest) before state)
    (slot : (Category.expression, value) ∈ kind.slots) :
    Yields (assignedType environment value) state fun type final =>
      Visits limit origin results node kind [value] rest before final ∧ Tells final value type := by
  unfold assignedType
  rw [yields_bind]
  refine (yields_visit_expression visits slot).weaken ?_
  rintro type visited ⟨visits, typed, -, -⟩
  split
  · rw [yields_bind]
    exact yields_report visits.sound (visits.child_spanned (by simp)) fun final reported =>
      ⟨visits.noted (reported.noted _), Or.inr ⟨rfl, reported.unclean rfl⟩⟩
  · exact ⟨visits, Or.inl typed⟩

/-- A name to the left of an assignment, with the type that is stored for it. -/
theorem yields_name_typed (results : Option Ty → Prop) {name : String}
    (constructed : origin.Constructed limit) (was : origin.arena.kind? target = some (.member name))
    (sound : Sound limit origin state)
    (untouched : Untouched origin (Below origin [target]) state) (type : Option Ty) :
    Yields (setType target type) state fun _ final =>
      Worked limit origin results [target] state final ∧ final.type? target = type := by
  have visits : Visits limit origin results target (.member name) [] [] state state :=
    .begin constructed was sound untouched
  exact yields_typed (judged_plain visits fun _ => trivial)

theorem yields_name_assignment {operator : AssignOperator} {name : String} {valueType : Option Ty}
    (visits : Visits limit origin results node (.assign operator target value) [value] [target]
      before state)
    (was : origin.arena.kind? target = some (.member name)) (told : Tells state value valueType) :
    Yields (nameAssignment environment node operator target name value valueType) state
      fun _ final => Worked limit origin results [node] before final := by
  have targetSpanned : (state.span? target).isSome := by
    rw [visits.next_untouched.span target (below_singleton.mpr .refl)]
    exact (visits.constructed.recorded target).mpr (visits.child_bound (by simp))
  unfold nameAssignment
  rw [yields_bind, yields_scopes]
  split
  · rename_i binding _
    rw [yields_bind]
    refine (yields_name_typed results visits.constructed was visits.sound visits.next_untouched
      binding.type).weaken ?_
    rintro _ typed ⟨work, stored⟩
    have told := told.later (visits.types_kept work value (by simp)) work.leaves.clean
    exact (judged_store (visits.next work).whole stored told).weaken fun _ final judged =>
      worked_of_judged (judged _)
  · split
    · refine yields_report visits.sound targetSpanned fun final reported => ?_
      have visits := visits.noted (reported.noted _)
      have named : Visits limit origin results target (.member name) [] [] final final :=
        .begin visits.constructed was visits.sound visits.next_untouched
      have work := worked_of_judged (judged_plain named fun _ => trivial)
      exact worked_of_judged (judged_plain (visits.next work).whole fun clean =>
        absurd clean (reported.unclean rfl))
    · rename_i plain
      have plain : operator = .assign := not_not.mp plain
      subst plain
      split
      · rename_i earlier nested
        have known := visits.sound.bound earlier (Scopes.node_of_nested nested)
        rw [yields_bind]
        refine (yields_report_duplicate visits.sound known targetSpanned fun _ => False).weaken
          fun _ reported noted => ?_
        have visits := visits.noted noted
        have told : Tells reported value valueType := by
          refine told.later ?_ noted.leaves.clean
          unfold InferenceState.type?
          rw [noted.tree]
        rw [yields_bind]
        refine (yields_name_typed results visits.constructed was visits.sound visits.next_untouched
          valueType).weaken ?_
        rintro _ typed ⟨work, stored⟩
        rw [yields_on_scopes]
        have spanned : (typed.span? target).isSome := by
          rw [work.spans target (by simp)]
          exact (visits.constructed.recorded target).mpr (visits.child_bound (by simp))
        have declared := noted_declare work.sound spanned name valueType .inner
        have told := told.later (visits.types_kept work value (by simp)) work.leaves.clean
        refine worked_of_judged (judged_plain (visits.next (work.noted declared)).whole fun clean => ?_)
        change IfKnown (typed.type? target) fun target => IfKnown (typed.type? value) fun value =>
          assignability value target = .exact
        rw [stored]
        cases valueType with
        | none => exact if_known_none _
        | some type =>
            rw [told.known]
            exact if_known_some (if_known_some (assignability_self type))
      · exact yields_implicit_definition visits was fun found same => by
          subst same
          exact told.known

theorem yields_assignment {operator : AssignOperator}
    (visits : Visits limit origin results node (.assign operator target value) [] [target, value]
      before state) :
    Yields (assignment environment node operator target value) state fun _ final =>
      Worked limit origin results [node] before final := by
  have admitted := visits.constructed.admitted visits.found (operator.side, target)
    (by simp [NodeKind.slots])
  unfold assignment
  rw [yields_bind]
  refine (yields_assigned_type (visits.reorder (List.Perm.swap _ _ _))
    (by simp [NodeKind.slots])).weaken ?_
  rintro valueType valued ⟨visits, told⟩
  obtain ⟨kind, was, admits⟩ := admitted
  have target' := AssignOperator.is_target_of_side admits
  have found : valued.kind? target = some kind :=
    (visits.next_untouched.kind target (below_singleton.mpr .refl)).trans was
  have stored : ∀ {final} {type : Option Ty}, Worked limit origin results [target] valued final →
      final.type? target = type →
      Yields (store environment node operator value type valueType) final fun _ last =>
        Worked limit origin results [node] before last := by
    intro final type work typed
    have told := told.later (visits.types_kept work value (by simp)) work.leaves.clean
    exact (judged_store (visits.next work).whole typed told).weaken fun _ last judged =>
      worked_of_judged (judged _)
  rw [yields_bind, yields_kind, found]
  have accessed : kind.isExpression = true →
      Yields (do
        let targetType ← expression environment target
        store environment node operator value targetType valueType) valued fun _ last =>
        Worked limit origin results [node] before last := by
    intro expression'
    rw [yields_bind]
    refine (yields_expression results visits.constructed ⟨kind, was, expression'⟩ visits.sound
      visits.next_untouched).weaken ?_
    rintro type final ⟨work, typed⟩
    exact stored work typed
  cases kind with
  | definition written name =>
      cases written with
      | none => cases target'
      | some written =>
          have inner : Visits limit origin results target (.definition (some written) name) []
              [written] valued valued :=
            .begin visits.constructed was visits.sound visits.next_untouched
          simp only
          rw [yields_bind]
          refine (yields_visit_type inner (by simp [NodeKind.slots])).weaken ?_
          rintro declared resolved ⟨inner, -, -⟩
          rw [yields_bind]
          have judged : Judged limit origin results target (.definition (some written) name)
              declared valued resolved := judged_plain inner fun _ => trivial
          refine (yields_typed judged).weaken ?_
          rintro _ typed ⟨work, same⟩
          have spanned : (typed.span? target).isSome := by
            rw [work.spans target (by simp)]
            exact (visits.constructed.recorded target).mpr (Arena.kind_bound was)
          rw [yields_bind]
          refine (yields_define work.sound spanned).weaken fun _ defined noted => ?_
          refine stored (work.noted noted) ?_
          unfold InferenceState.type?
          rw [noted.tree]
          exact same
  | member name => exact yields_name_assignment visits was told
  | memberAccess owner name => exact accessed rfl
  | indexAccess owner index => exact accessed rfl
  | _ => cases target'

end Assignments

end ModuleLang.Inference
