import ModuleLang.Proofs.Typing.Acceptance
import ModuleLang.Proofs.Typing.Effects

/-!
What inference accepts. An expression that was inferred without an error is left
accepted: its children were before its own rule was run, and the rule stores the
type that it gives for theirs. An operand that had to be widened is accepted with
the cast around it.
-/

namespace ModuleLang.Inference

variable {limit : Position} {origin : SourceTree} {environment : Environment}

/-- Between two states nodes were accepted, and what is said about them was
reported. -/
def Approved (environment : Environment) (names : Scopes) (nodes : List NodeId)
    (before after : InferenceState) : Prop :=
  ∃ reports, after.diagnostics = before.diagnostics ++ reports ∧
    Accepted environment names after.tree nodes reports

/-- The inference of subexpressions with a number below `bound` leaves them
accepted. -/
def Accepting (limit : Position) (origin : SourceTree) (environment : Environment) (bound : Nat)
    (infer : NodeId → Inference (Option Ty)) : Prop :=
  ∀ node state type final, node.index < bound → origin.arena.Admitted .expression node →
    Ready limit origin node state → Ran (infer node) state type final →
    Undeclared state final ∧ (final.Clean → Approved environment state.scopes [node] state final)

section Nodes

variable {names : Scopes} {node child cast : NodeId} {nodes : List NodeId} {kind : NodeKind NodeId}
  {target : Ty} {region : Region} {before state after : InferenceState}

/-- Nodes of a settled region are not changed while work is done elsewhere. -/
theorem Settled.unchanged {results : Option Ty → Prop} {changed : Region}
    (settled : Settled origin results region state) (inside : ∀ node ∈ nodes, region node)
    (leaves : Leaves changed state after) (apart : ∀ id, region id → ¬ changed id) :
    Unchanged state.tree after.tree nodes := by
  intro node member id path
  have held := settled.reachable (inside node member) path
  have bound := settled.bounded held
  exact ⟨leaves.node id bound (apart id held), leaves.span id bound (apart id held)⟩

/-- They stay accepted. -/
theorem Accepted.later {results : Option Ty → Prop} {changed : Region} {reports : List Diagnostic}
    (accepted : Accepted environment names state.tree nodes reports)
    (settled : Settled origin results region state) (inside : ∀ node ∈ nodes, region node)
    (leaves : Leaves changed state after) (apart : ∀ id, region id → ¬ changed id) :
    Accepted environment names after.tree nodes reports :=
  accepted.frame (settled.unchanged inside leaves apart)

/-- A cast around an accepted node is accepted. -/
theorem accepted_cast {reports : List Diagnostic} {tree : SourceTree} {written : NodeId}
    {source : Ty} (accepted : Accepted environment names tree [child] reports)
    (found : tree.arena.kind? cast = some (.cast written child (some source)))
    (held : tree.arena.type? child = some source) (typed : tree.arena.type? cast = some target)
    (spells : tree.arena.Spells target written) (widens : source.widensTo target = true) :
    Accepted environment names tree [cast] reports := by
  have spelled : Accepted environment names tree [written] ([] ++ []) := by
    apply Accepted.one spells.1 .nil
    · rw [spells.2]
      exact ⟨target, rfl, environment.host.reads_back_of_widens widens⟩
    · rfl
  have below : Accepted environment names tree [written, child] reports := spelled.append accepted
  have whole : Accepted environment names tree [cast] (reports ++ []) := by
    apply Accepted.one found below
    · refine ⟨held.symm, typed.trans spells.2.symm, ?_⟩
      rw [held, spells.2]
      exact if_known_some (if_known_some (casts_of_widens widens))
    · rfl
  rw [List.append_nil] at whole
  exact whole

/-- What a widening leaves of accepted nodes: one of them stands inside a cast. -/
theorem Accepted.widened {results : Option Ty → Prop} {reports : List Diagnostic}
    (accepted : Accepted environment names state.tree nodes reports)
    (sound : Sound limit origin state) (settled : Settled origin results region state)
    (inside : ∀ node ∈ nodes, region node) (outside : ¬ region node)
    (widened : Widened limit origin results node child kind target region state after cast) :
    Accepted environment names after.tree (nodes.map (NodeKind.swap child cast)) reports := by
  have kept : Accepted environment names after.tree nodes reports := by
    apply accepted.later settled inside widened.rewrites.leaves
    rintro id held rfl
    exact outside held
  rcases widened.rewrites.settled cast (Or.inr widened.made) with ⟨own, fine, -⟩
  rcases widened.cast with ⟨written, source, found⟩
  cases found.symm.trans fine.found
  have whole : ∀ {reports}, Accepted environment names after.tree [child] reports →
      Accepted environment names after.tree [cast] reports := by
    intro reports accepted
    cases fine.traced with
    | parsed was _ _ =>
        have new := Nat.le_trans sound.size widened.made.1
        exact absurd (Arena.kind_bound was) (Nat.not_lt.mpr new)
    | added _ form =>
        cases form with
        | cast spells _ held typed widens _ =>
            exact accepted_cast accepted found held typed spells widens
  clear accepted inside
  induction nodes generalizing reports with
  | nil =>
      cases kept
      exact .nil
  | cons first rest ih =>
      rcases Accepted.split (show Accepted environment names after.tree ([first] ++ rest) reports
        from kept) with ⟨left, right, rfl, head, tail⟩
      have changed : Accepted environment names after.tree [NodeKind.swap child cast first] left := by
        unfold NodeKind.swap
        split
        · rename_i same
          subst same
          exact whole head
        · exact head
      exact changed.append (ih tail)

theorem Approved.append {first second : List NodeId} {middle : InferenceState}
    (left : Approved environment names first before middle)
    (right : Approved environment names second middle after)
    (kept : ∀ reports, Accepted environment names middle.tree first reports →
      Accepted environment names after.tree first reports) :
    Approved environment names (first ++ second) before after := by
  rcases left with ⟨early, reported, accepted⟩
  rcases right with ⟨late, also, more⟩
  refine ⟨early ++ late, ?_, (kept early accepted).append more⟩
  rw [also, reported, List.append_assoc]

end Nodes

section Rules

variable {infer : NodeId → Inference (Option Ty)} {node child : NodeId} {kind : NodeKind NodeId}
  {done rest : List NodeId} {scopes : Scopes} {before state final : InferenceState}

/-- Children of a node are visited one after the other, and those that were visited
are accepted. -/
structure Approving (limit : Position) (origin : SourceTree) (environment : Environment)
    (scopes : Scopes) (node : NodeId) (kind : NodeKind NodeId) (done rest : List NodeId)
    (before state : InferenceState) : Prop where
  visits : Visits limit origin (fun _ => False) node kind done rest before state
  visible : state.scopes = scopes
  approved : state.Clean → Approved environment scopes done before state

namespace Approving

theorem begin (constructed : origin.Constructed limit)
    (found : origin.arena.kind? node = some kind) (ready : Ready limit origin node state) :
    Approving limit origin environment state.scopes node kind [] kind.children state state :=
  ⟨.begin constructed found ready.sound ready.untouched, rfl,
    fun _ => ⟨[], (List.append_nil _).symm, .nil⟩⟩

/-- What was visited stays as it is while the next child is worked on. -/
theorem kept (approving : Approving limit origin environment scopes node kind done (child :: rest)
      before state) (work : Passed limit origin [child] state final) {reports : List Diagnostic}
    (accepted : Accepted environment scopes state.tree done reports) :
    Accepted environment scopes final.tree done reports := by
  have visits := approving.visits
  apply accepted.later visits.work.settled (fun _ => Visits.child_covered) work.leaves
  rintro id (inside | ⟨new, -⟩) below
  · exact visits.next_apart inside below
  · have old := below_bounded visits.constructed (fun other member => by
      rw [List.mem_singleton.mp member]
      exact visits.child_bound (List.mem_append_right _ List.mem_cons_self)) below
    exact Nat.not_lt.mpr (Nat.le_trans visits.start.size new) old

theorem next (approving : Approving limit origin environment scopes node kind done (child :: rest)
      before state) (work : Passed limit origin [child] state final) (same : Undeclared state final)
    (approved : final.Clean → Approved environment scopes [child] state final) :
    Approving limit origin environment scopes node kind (done ++ [child]) rest before final where
  visits := approving.visits.next work
  visible := same.scopes.trans approving.visible
  approved clean := (approving.approved (same.clean clean)).append (approved clean)
    fun _ => approving.kept work

end Approving

/-- A written type that was resolved is accepted. -/
theorem approved_of_resolve {type : Option Ty} (names : Scopes) (bound : child.index < state.size)
    (ran : Ran (resolveType environment child) state type final) (clean : final.Clean) :
    Approved environment names [child] state final ∧ final.type? child = type := by
  rcases ran_bind.mp ran with ⟨_, _, got, ran⟩
  cases got
  split at ran
  · rename_i name ranks found
    split at ran
    · rcases ran_bind.mp ran with ⟨_, _, reported, ran⟩
      cases ran
      exact absurd clean (not_clean_of_report reported rfl)
    · rename_i base resolved
      rcases ran_bind.mp ran with ⟨_, _, stored, ran⟩
      cases ran
      have typed := (ran_set_type stored).2 bound
      have kept := (ran_set_type stored).1.kinds child
      have known : final.tree.arena.kind? child = some (.typeRef name ranks) := kept.trans found
      have quiet : final.diagnostics = state.diagnostics := by
        cases stored
        rfl
      have accepted : Accepted environment names final.tree [child] ([] ++ []) := by
        apply Accepted.one known .nil
        · refine ⟨base.layered ranks, typed, ?_⟩
          change final.type? child = _ at typed
          rw [Host.written?, resolved]
          exact typed.symm
        · rfl
      exact ⟨⟨[], by rw [quiet, List.append_nil], accepted⟩, typed⟩
  · cases ran

section Visits

/-- The types of nodes that were visited are kept, and no report is taken back. -/
structure Onward (done : List NodeId) (before after : InferenceState) : Prop where
  kept : ∀ earlier ∈ done, after.type? earlier = before.type? earlier
  grows : before.diagnostics <+: after.diagnostics

theorem Onward.part {first all : List NodeId} {before after : InferenceState}
    (onward : Onward all before after) (subset : first ⊆ all) : Onward first before after :=
  ⟨fun earlier member => onward.kept earlier (subset member), onward.grows⟩

theorem Onward.trans {middle : InferenceState} (first : Onward done before middle)
    (second : Onward done middle final) : Onward done before final :=
  ⟨fun earlier member => (second.kept earlier member).trans (first.kept earlier member),
    first.grows.trans second.grows⟩

variable (accepting : Accepting limit origin environment node.index infer)
  (infers : Infers limit origin (fun _ => False) node.index infer)

include accepting infers in
/-- A child that is visited next, and the type that is found for it. -/
theorem Approving.visit {type : Option Ty}
    (approving : Approving limit origin environment scopes node kind done (child :: rest) before
      state) (slot : (Category.expression, child) ∈ kind.slots)
    (ran : Ran (infer child) state type final) :
    Approving limit origin environment scopes node kind (done ++ [child]) rest before final ∧
      final.type? child = type ∧ Onward done state final := by
  have visits := approving.visits
  have below := visits.below_index (List.mem_append_right done (List.mem_cons_self (l := rest)))
  have admitted := visits.constructed.admitted visits.found _ slot
  have untouched := visits.next_untouched
  rcases (infers child state below admitted visits.sound untouched).of_ran ran with ⟨work, typed⟩
  rcases accepting child state type final below admitted ⟨visits.sound, untouched⟩ ran with
    ⟨same, approved⟩
  refine ⟨approving.next work same ?_, typed, visits.types_kept work, same.diagnostics⟩
  intro clean
  rw [← approving.visible]
  exact approved clean

/-- A written type that is visited next. -/
theorem Approving.visit_type {type : Option Ty}
    (approving : Approving limit origin environment scopes node kind done (child :: rest) before
      state) (slot : (Category.type, child) ∈ kind.slots)
    (ran : Ran (resolveType environment child) state type final) :
    Approving limit origin environment scopes node kind (done ++ [child]) rest before final ∧
      (final.Clean → final.type? child = type) := by
  have visits := approving.visits
  have admitted := visits.constructed.admitted visits.found _ slot
  have bound : child.index < state.size := by
    have old := visits.child_bound (List.mem_append_right done (List.mem_cons_self (l := rest)))
    exact Nat.lt_of_lt_of_le old visits.sound.size
  rcases (yields_resolve_type (fun _ => False) visits.constructed admitted visits.sound
    visits.next_untouched).of_ran ran with ⟨work, -⟩
  have same := undeclared_frame.keeps_resolve_type environment child _ _ _ ran
  exact ⟨approving.next work same fun clean => (approved_of_resolve scopes bound ran clean).1,
    fun clean => (approved_of_resolve scopes bound ran clean).2⟩

omit accepting infers in
/-- Children that are visited one after the other. -/
theorem Approving.visit_list {visit : NodeId → Inference (Option Ty)} {category : Category}
    (step : ∀ {done rest child state type final},
      Approving limit origin environment scopes node kind done (child :: rest) before state →
      (category, child) ∈ kind.slots → Ran (visit child) state type final →
      Approving limit origin environment scopes node kind (done ++ [child]) rest before final ∧
        final.type? child = type ∧ Onward done state final)
    {types : List (Option Ty)} {items : List NodeId}
    (approving : Approving limit origin environment scopes node kind done (items ++ rest) before
      state) (slots : ∀ item ∈ items, (category, item) ∈ kind.slots)
    (ran : Ran (items.mapM visit) state types final) :
    Approving limit origin environment scopes node kind (done ++ items) rest before final ∧
      items.map final.type? = types ∧ Onward done state final := by
  induction items generalizing done state types with
  | nil =>
      rw [List.mapM_nil] at ran
      cases ran
      rw [List.append_nil]
      exact ⟨approving, rfl, fun _ _ => rfl, List.prefix_refl _⟩
  | cons item items ih =>
      rw [List.mapM_cons] at ran
      rcases ran_bind.mp ran with ⟨_, _, first, ran⟩
      rcases ran_bind.mp ran with ⟨_, _, more, ran⟩
      cases ran
      rcases step approving (slots item List.mem_cons_self) first with ⟨later, typed, onward⟩
      rcases ih later (fun other member => slots other (List.mem_cons_of_mem _ member)) more with
        ⟨whole, types, still⟩
      rw [List.append_assoc, List.singleton_append] at whole
      refine ⟨whole, ?_, onward.trans (still.part (List.subset_append_left _ _))⟩
      rw [List.map_cons, types, still.kept item (by simp), typed]

include accepting infers in
theorem Approving.visit_all {types : List (Option Ty)} {arguments : List NodeId}
    (approving : Approving limit origin environment scopes node kind done arguments before state)
    (slots : ∀ argument ∈ arguments, (Category.expression, argument) ∈ kind.slots)
    (ran : Ran (arguments.mapM infer) state types final) :
    Approving limit origin environment scopes node kind (done ++ arguments) [] before final ∧
      arguments.map final.type? = types ∧ Onward done state final := by
  apply Approving.visit_list (fun approving => approving.visit accepting infers) _ slots ran
  rw [List.append_nil]
  exact approving

include accepting infers in
theorem Approving.visit_each {arguments : List NodeId} {result : Unit}
    (approving : Approving limit origin environment scopes node kind done arguments before state)
    (slots : ∀ argument ∈ arguments, (Category.expression, argument) ∈ kind.slots)
    (ran : Ran (arguments.forM fun argument => do let _ ← infer argument) state result final) :
    Approving limit origin environment scopes node kind (done ++ arguments) [] before final ∧
      Onward done state final := by
  induction arguments generalizing done state with
  | nil =>
      cases ran
      rw [List.append_nil]
      exact ⟨approving, fun _ _ => rfl, List.prefix_refl _⟩
  | cons argument arguments ih =>
      rcases ran_bind.mp ran with ⟨_, _, head, tail⟩
      rcases ran_bind.mp head with ⟨_, _, head, done'⟩
      cases done'
      rcases approving.visit accepting infers (slots argument List.mem_cons_self) head with
        ⟨later, -, onward⟩
      rcases ih later (fun other member => slots other (List.mem_cons_of_mem _ member)) tail with
        ⟨whole, still⟩
      rw [List.append_assoc, List.singleton_append] at whole
      exact ⟨whole, onward.trans (still.part (List.subset_append_left _ _))⟩

end Visits

/-- The rule of a node was run, and its type is still to be stored. -/
structure Concludes (environment : Environment) (names : Scopes) (node : NodeId) (own : Option Ty)
    (before after : InferenceState) (now : NodeKind NodeId) (inner added : List Diagnostic) :
    Prop where
  found : after.kind? node = some now
  below : Accepted environment names after.tree now.children inner
  rule : now.Accepts environment names after.type? own (!inner.isEmpty)
  warned : Cautioned environment after.tree node (now.warns after.type?) added
  diagnostics : after.diagnostics = before.diagnostics ++ (inner ++ added)

/-- What the rule of a node leaves behind. -/
def Concluded (environment : Environment) (names : Scopes) (node : NodeId) (own : Option Ty)
    (before after : InferenceState) : Prop :=
  ∃ now inner added, Concludes environment names node own before after now inner added

/-- A rule that changed nothing. -/
theorem Approving.conclude {own : Option Ty}
    (approving : Approving limit origin environment scopes node kind kind.children [] before state)
    (clean : state.Clean) (quiet : kind.warns state.type? = false)
    (rule : ∀ inner, state.diagnostics = before.diagnostics ++ inner →
      kind.Accepts environment scopes state.type? own (!inner.isEmpty)) :
    Concluded environment scopes node own before state := by
  rcases approving.approved clean with ⟨inner, reported, accepted⟩
  refine ⟨kind, inner, [], approving.visits.node_same.1, accepted, rule inner reported, ?_, ?_⟩
  · rw [Cautioned, quiet]
    rfl
  · rw [reported, List.append_nil]

section Plain

variable (accepting : Accepting limit origin environment node.index infer)
  (infers : Infers limit origin (fun _ => False) node.index infer)

include accepting infers

theorem concluded_member_access {owner : NodeId} {name : String} {type : Option Ty}
    (approving : Approving limit origin environment scopes node (.memberAccess owner name) []
      [owner] before state)
    (ran : Ran (memberAccess environment infer node owner name) state type final)
    (clean : final.Clean) : Concluded environment scopes node type before final := by
  rcases ran_bind.mp ran with ⟨found, visited, first, ran⟩
  rcases approving.visit accepting infers (by simp [NodeKind.slots]) first with
    ⟨approving, typed, -⟩
  cases found with
  | none =>
      cases ran
      apply approving.conclude clean rfl
      intro inner _
      simp only [NodeKind.Accepts, typed, memberResult]
  | some ownerType =>
      simp only at ran
      split at ran
      · rename_i found resolved
        cases ran
        apply approving.conclude clean rfl
        intro inner _
        simp only [NodeKind.Accepts, typed, memberResult, resolved, Option.map_some]
      · rcases ran_bind.mp ran with ⟨_, _, reported, ran⟩
        cases ran
        exact absurd clean (not_clean_of_report reported rfl)

theorem concluded_unary {operator : UnaryOperator} {operand : NodeId} {type : Option Ty}
    (approving : Approving limit origin environment scopes node (.unary operator operand) []
      [operand] before state)
    (ran : Ran (unary environment infer node operator operand) state type final)
    (clean : final.Clean) : Concluded environment scopes node type before final := by
  rcases ran_bind.mp ran with ⟨found, visited, first, ran⟩
  rcases approving.visit accepting infers (by simp [NodeKind.slots]) first with
    ⟨approving, typed, -⟩
  cases found with
  | none =>
      cases ran
      apply approving.conclude clean rfl
      intro inner _
      simp only [NodeKind.Accepts, typed, unaryResult]
  | some operandType =>
      simp only at ran
      split at ran
      · rcases ran_bind.mp ran with ⟨_, _, reported, ran⟩
        cases ran
        exact absurd clean (not_clean_of_report reported rfl)
      · rename_i taken
        cases ran
        rw [Bool.not_eq_true, Bool.not_eq_false'] at taken
        apply approving.conclude clean rfl
        intro inner _
        simp only [NodeKind.Accepts, typed, unaryResult, taken, if_true]

theorem concluded_call {name : String} {arguments : List NodeId} {type : Option Ty}
    (approving : Approving limit origin environment scopes node (.call name arguments) []
      arguments before before)
    (ran : Ran (call environment infer node name arguments) before type final)
    (clean : final.Clean) : Concluded environment scopes node type before final := by
  rcases ran_bind.mp ran with ⟨_, _, got, ran⟩
  cases got
  rcases ran_bind.mp ran with ⟨types, visited, first, ran⟩
  rcases approving.visit_all accepting infers
    (fun argument member => by simp [NodeKind.slots, member]) first with ⟨approving, typed, -⟩
  rcases ran_bind.mp ran with ⟨_, _, got, ran⟩
  cases got
  dsimp only at ran
  split at ran
  · rename_i signature found
    cases ran
    apply approving.conclude clean rfl
    intro inner _
    simp only [NodeKind.Accepts, typed, callResult, found]
  · rename_i found
    split at ran
    · rcases ran_bind.mp ran with ⟨_, _, reported, ran⟩
      cases ran
      exact absurd clean (not_clean_of_report reported rfl)
    · rename_i suppressed
      cases ran
      apply approving.conclude clean rfl
      intro inner reported
      have counts : decide (before.diagnostics.length < final.diagnostics.length) =
          !inner.isEmpty := by
        rw [reported, List.length_append]
        cases inner <;> simp
      have sized : types.length = arguments.length := by
        rw [← typed, List.length_map]
      rw [counts, ← sized, Bool.not_eq_true, Bool.not_eq_false'] at suppressed
      simp only [NodeKind.Accepts, typed, callResult, found, suppressed, if_true]

theorem concluded_construct {written : NodeId} {arguments : List NodeId} {type : Option Ty}
    (approving : Approving limit origin environment scopes node (.construct written arguments) []
      (written :: arguments) before state)
    (ran : Ran (do
      let constructed ← resolveType environment written
      arguments.forM fun argument => do let _ ← infer argument
      return constructed) state type final)
    (clean : final.Clean) : Concluded environment scopes node type before final := by
  rcases ran_bind.mp ran with ⟨found, resolved, first, ran⟩
  rcases ran_bind.mp ran with ⟨_, _, visited, ran⟩
  cases ran
  rcases approving.visit_type (by simp [NodeKind.slots]) first with ⟨approving, typed⟩
  rcases approving.visit_each accepting infers
    (fun argument member => by simp [NodeKind.slots, member]) visited with ⟨approving, onward⟩
  apply approving.conclude clean rfl
  intro inner _
  rw [NodeKind.Accepts, onward.kept written (by simp)]
  exact (typed (clean_of_grown onward.grows clean)).symm

end Plain

section Widening

/-- At most one child of a node was put inside a cast. `seen` are the children in the
order in which they were visited. -/
structure Adjusted (environment : Environment) (names : Scopes) (node : NodeId)
    (kind : NodeKind NodeId) (seen : List NodeId) (child : NodeId)
    (before state after : InferenceState) (change : NodeId → NodeId) : Prop where
  found : after.kind? node = some (kind.map change)
  approved : Approved environment names (seen.map change) before after
  others : ∀ other ∈ kind.children, other ≠ child →
    change other = other ∧ after.type? other = state.type? other

theorem Visits.unadjusted {names : Scopes}
    (visits : Visits limit origin (fun _ => False) node kind done [] before state)
    (approved : Approved environment names done before state) (child : NodeId) :
    Adjusted environment names node kind done child before state state id where
  found := by
    rw [NodeKind.map_id]
    exact visits.node_same.1
  approved := by
    rw [List.map_id]
    exact approved
  others _ _ _ := ⟨rfl, rfl⟩

theorem Visits.widen {names : Scopes} {source target : Ty} {result : Unit}
    (visits : Visits limit origin (fun _ => False) node kind done [] before state)
    (approved : state.Clean → Approved environment names done before state) (clean : final.Clean)
    (slot : (Category.expression, child) ∈ kind.slots) (typed : state.type? child = some source)
    (widens : source.widensTo target = true)
    (ran : Ran (insertCast node child target) state result final) :
    ∃ change, Adjusted environment names node kind done child before state final change ∧
      final.type? (change child) = some target ∧ final.diagnostics = state.diagnostics ∧
      final.scopes = state.scopes := by
  have whole := visits.whole
  have widening : Yields (insertCast node child target) state fun _ final => ∃ cast,
      Widened limit origin (fun _ => False) node child kind target
        (Covered origin kind.children before state) state final cast :=
    yields_widen whole slot typed widens fun cast _ widened => ⟨cast, widened⟩
  rcases widening.of_ran ran with ⟨cast, widened⟩
  have same : final.diagnostics = state.diagnostics := widened.diagnostics
  have cleanly : state.Clean := by
    unfold InferenceState.Clean at *
    rw [← same]
    exact clean
  have order := visits.order
  rw [List.append_nil] at order
  refine ⟨NodeKind.swap child cast, ⟨widened.parent, ?_, ?_⟩, ?_, same, widened.scopes⟩
  · rcases approved cleanly with ⟨reports, reported, accepted⟩
    refine ⟨reports, same.trans reported, ?_⟩
    apply accepted.widened whole.sound whole.work.settled _ whole.node_uncovered widened
    intro other member
    exact Visits.child_covered (order.mem_iff.mp member)
  · intro other member apart
    exact ⟨NodeKind.swap_of_ne apart, whole.types_widened member widened⟩
  · rw [NodeKind.swap, if_pos rfl]
    exact widened.type

theorem Approving.untouched
    (approving : Approving limit origin environment scopes node kind kind.children [] before state)
    (clean : state.Clean) (child : NodeId) :
    Adjusted environment scopes node kind kind.children child before state state id :=
  approving.visits.unadjusted (approving.approved clean) child

theorem Approving.widen {source target : Ty} {result : Unit}
    (approving : Approving limit origin environment scopes node kind kind.children [] before state)
    (clean : final.Clean) (slot : (Category.expression, child) ∈ kind.slots)
    (typed : state.type? child = some source) (widens : source.widensTo target = true)
    (ran : Ran (insertCast node child target) state result final) :
    ∃ change, Adjusted environment scopes node kind kind.children child before state final change ∧
      final.type? (change child) = some target := by
  rcases approving.visits.widen approving.approved clean slot typed widens ran with
    ⟨change, adjusted, own, -, -⟩
  exact ⟨change, adjusted, own⟩

/-- An index or a length that is not reported is an `int`, or is put inside a cast
to one. -/
theorem Approving.check_index {type : Option Ty} {result : Unit}
    (approving : Approving limit origin environment scopes node kind kind.children [] before state)
    (clean : final.Clean) (slot : (Category.expression, child) ∈ kind.slots)
    (typed : state.type? child = type)
    (ran : Ran (checkIndex environment node child type) state result final) :
    ∃ change, Adjusted environment scopes node kind kind.children child before state final change ∧
      IfKnown (final.type? (change child)) (· = .int) := by
  unfold checkIndex at ran
  split at ran
  · cases ran
    exact ⟨id, approving.untouched clean child, by rw [id, typed]; exact if_known_none _⟩
  · split at ran
    · rename_i same
      cases ran
      exact ⟨id, approving.untouched clean child, by rw [id, typed]; exact if_known_some same⟩
    · split at ran
      · rename_i widens
        rcases approving.widen clean slot typed widens ran with ⟨change, adjusted, own⟩
        exact ⟨change, adjusted, by rw [own]; exact if_known_some rfl⟩
      · exact absurd clean (not_clean_of_report ran rfl)

/-- A rule that changed at most the slot of one child. -/
theorem Adjusted.conclude {own : Option Ty} {change : NodeId → NodeId}
    (adjusted : Adjusted environment scopes node kind kind.children child before state final change)
    (quiet : (kind.map change).warns final.type? = false)
    (rule : ∀ reported,
      (kind.map change).Accepts environment scopes final.type? own reported) :
    Concluded environment scopes node own before final := by
  rcases adjusted.approved with ⟨inner, reported, accepted⟩
  refine ⟨kind.map change, inner, [], adjusted.found, ?_, rule _, ?_, ?_⟩
  · rw [NodeKind.children_map]
    exact accepted
  · rw [Cautioned, quiet]
    rfl
  · rw [reported, List.append_nil]

variable (accepting : Accepting limit origin environment node.index infer)
  (infers : Infers limit origin (fun _ => False) node.index infer)

include accepting infers

theorem concluded_new_array {element length : NodeId} {type : Option Ty}
    (approving : Approving limit origin environment scopes node (.newArray element length) []
      [element, length] before state)
    (ran : Ran (newArray environment infer node element length) state type final)
    (clean : final.Clean) : Concluded environment scopes node type before final := by
  rcases ran_bind.mp ran with ⟨elementType, _, first, ran⟩
  rcases approving.visit_type (by simp [NodeKind.slots]) first with ⟨approving, elementTyped⟩
  rcases ran_bind.mp ran with ⟨lengthType, measured, second, ran⟩
  rcases approving.visit accepting infers (by simp [NodeKind.slots]) second with
    ⟨approving, lengthTyped, onward⟩
  rcases ran_bind.mp ran with ⟨_, _, third, ran⟩
  cases ran
  have distinct : element ≠ length := by
    simpa [NodeKind.children] using approving.visits.distinct
  have earlier : measured.Clean :=
    (keeps_mild_check_index _ _ _ _ _ _ third).toUndeclared.clean clean
  have elementSame : measured.type? element = elementType :=
    (onward.kept element (by simp)).trans (elementTyped (clean_of_grown onward.grows earlier))
  rcases approving.check_index clean (by simp [NodeKind.slots]) lengthTyped third with
    ⟨change, adjusted, isInt⟩
  rcases adjusted.others element (by simp [NodeKind.children]) distinct with ⟨same, kept⟩
  apply adjusted.conclude rfl
  intro reported
  refine ⟨isInt, ?_⟩
  rw [same, kept, elementSame]

theorem concluded_index_access {target index : NodeId} {type : Option Ty}
    (approving : Approving limit origin environment scopes node (.indexAccess target index) []
      [target, index] before state)
    (ran : Ran (indexAccess environment infer node target index) state type final)
    (clean : final.Clean) : Concluded environment scopes node type before final := by
  rcases ran_bind.mp ran with ⟨targetType, _, first, ran⟩
  rcases approving.visit accepting infers (by simp [NodeKind.slots]) first with
    ⟨approving, targetTyped, -⟩
  rcases ran_bind.mp ran with ⟨indexType, indexed, second, ran⟩
  rcases approving.visit accepting infers (by simp [NodeKind.slots]) second with
    ⟨approving, indexTyped, onward⟩
  rcases ran_bind.mp ran with ⟨_, checked, third, ran⟩
  have distinct : target ≠ index := by
    simpa [NodeKind.children] using approving.visits.distinct
  have targetSame : indexed.type? target = targetType :=
    (onward.kept target (by simp)).trans targetTyped
  have adjusts : checked.Clean → ∃ change,
      Adjusted environment scopes node (.indexAccess target index) [target, index] index before
        indexed checked change ∧ IfKnown (checked.type? (change index)) (· = .int) ∧
      checked.type? (change target) = targetType := by
    intro clean
    rcases approving.check_index clean (by simp [NodeKind.slots]) indexTyped third with
      ⟨change, adjusted, isInt⟩
    rcases adjusted.others target (by simp [NodeKind.children]) distinct with ⟨same, kept⟩
    exact ⟨change, adjusted, isInt, by rw [same, kept, targetSame]⟩
  split at ran
  · cases ran
    rcases adjusts clean with ⟨change, adjusted, isInt, target⟩
    apply adjusted.conclude
    · simp [NodeKind.map, NodeKind.warns, target, elementWarns]
    · intro reported
      exact ⟨isInt, by rw [target]; rfl⟩
  · cases ran
    rcases adjusts clean with ⟨change, adjusted, isInt, target⟩
    apply adjusted.conclude
    · simp [NodeKind.map, NodeKind.warns, target, elementWarns]
    · intro reported
      exact ⟨isInt, by rw [target]; rfl⟩
  · rename_i element rank several _ _
    rcases ran_bind.mp ran with ⟨_, _, reported, ran⟩
    cases ran
    rcases ran_report reported with ⟨span, place, rfl⟩
    rcases adjusts (clean_of_grown (List.prefix_append _ _) clean) with
      ⟨change, adjusted, isInt, known⟩
    rcases adjusted.approved with ⟨inner, said, accepted⟩
    have result : elementResult (some (.array element rank)) = some none := by
      rw [elementResult, if_neg several]
    refine ⟨.indexAccess (change target) (change index), inner,
      [⟨.multiDimensionalIndexer, span, environment.fileName⟩], adjusted.found, accepted, ?_, ?_, ?_⟩
    · refine ⟨isInt, ?_⟩
      change elementResult (checked.type? (change target)) = some none
      rw [known, result]
    · have warns : (NodeKind.indexAccess (change target) (change index)).warns checked.type? =
          true := by
        rw [NodeKind.warns, known]
        simpa [elementWarns] using several
      change Cautioned environment _ node ((NodeKind.indexAccess (change target) (change index)).warns
        checked.type?) _
      rw [warns]
      exact ⟨span, place, rfl⟩
    · rw [said, List.append_assoc]
  · rcases ran_bind.mp ran with ⟨_, _, reported, ran⟩
    cases ran
    exact absurd clean (not_clean_of_report reported rfl)

omit accepting infers in
/-- A common type that was found, with at most one operand put inside a cast. -/
theorem Approving.common_type {operator : BinaryOperator} {left right : NodeId}
    {leftType rightType common : Option Ty}
    (approving : Approving limit origin environment scopes node (.binary operator left right)
      [left, right] [] before state) (clean : final.Clean)
    (leftTyped : state.type? left = leftType) (rightTyped : state.type? right = rightType)
    (ran : Ran (commonType environment node operator left right leftType rightType) state common
      final) : ∃ child change,
      Adjusted environment scopes node (.binary operator left right) [left, right] child before state
        final change ∧
      commonResult operator.category (final.type? (change left)) (final.type? (change right)) =
        some common := by
  have distinct : left ≠ right := by
    simpa [NodeKind.children] using approving.visits.distinct
  have same : final = state →
      commonResult operator.category leftType rightType = some common → ∃ child change,
      Adjusted environment scopes node (.binary operator left right) [left, right] child before state
        final change ∧
      commonResult operator.category (final.type? (change left)) (final.type? (change right)) =
        some common := by
    rintro rfl result
    refine ⟨left, id, approving.untouched clean left, ?_⟩
    rw [id, id, leftTyped, rightTyped]
    exact result
  unfold commonType at ran
  split at ran
  · rename_i unknown
    cases ran
    apply same rfl
    rw [commonResult, unknown]
  · rename_i first second known
    split at ran
    · rename_i fit
      cases ran
      apply same rfl
      rw [commonResult, known]
      simp only [fit]
    · rename_i unify
      rcases operand_types_of_unify known unify with ⟨rfl, rfl, -⟩
      have widened : ∀ {child : NodeId} {change : NodeId → NodeId} {wide : Ty},
          Adjusted environment scopes node (.binary operator left right) [left, right] child before
            state final change → (wide = first ∨ wide = second) →
          final.type? (change left) = some wide → final.type? (change right) = some wide →
          common = some wide → ∃ child change,
            Adjusted environment scopes node (.binary operator left right) [left, right] child before
              state final change ∧
            commonResult operator.category (final.type? (change left))
              (final.type? (change right)) = some common := by
        intro child change wide adjusted one leftWide rightWide whole
        refine ⟨child, change, adjusted, ?_⟩
        rw [leftWide, rightWide, whole]
        exact common_of_same (unify_of_common unify one)
      unfold Inference.unify at ran
      split at ran
      · rename_i promoted
        cases ran
        apply same rfl
        cases promote_same promoted
        exact common_of_same unify
      · rename_i wide promoted
        rcases promote_left promoted with ⟨rfl, widens⟩
        rcases ran_bind.mp ran with ⟨_, _, inserted, ran⟩
        cases ran
        rcases approving.widen clean (by simp [NodeKind.slots]) leftTyped widens inserted with
          ⟨change, adjusted, own⟩
        rcases adjusted.others right (by simp [NodeKind.children]) (Ne.symm distinct) with
          ⟨stays, kept⟩
        exact widened adjusted (Or.inr rfl) own (by rw [stays, kept, rightTyped]) rfl
      · rename_i wide promoted
        rcases promote_right promoted with ⟨rfl, widens⟩
        rcases ran_bind.mp ran with ⟨_, _, inserted, ran⟩
        cases ran
        rcases approving.widen clean (by simp [NodeKind.slots]) rightTyped widens inserted with
          ⟨change, adjusted, own⟩
        rcases adjusted.others left (by simp [NodeKind.children]) distinct with ⟨stays, kept⟩
        exact widened adjusted (Or.inl rfl) (by rw [stays, kept, leftTyped]) own rfl
      · rcases ran_bind.mp ran with ⟨_, _, reported, ran⟩
        cases ran
        exact absurd clean (not_clean_of_report reported rfl)
    · rcases ran_bind.mp ran with ⟨_, _, reported, ran⟩
      cases ran
      exact absurd clean (not_clean_of_report reported rfl)

theorem concluded_binary {operator : BinaryOperator} {left right : NodeId} {type : Option Ty}
    (approving : Approving limit origin environment scopes node (.binary operator left right) []
      [left, right] before state)
    (ran : Ran (binary environment infer node operator left right) state type final)
    (clean : final.Clean) : Concluded environment scopes node type before final := by
  rcases ran_bind.mp ran with ⟨leftType, _, first, ran⟩
  rcases approving.visit accepting infers (by simp [NodeKind.slots]) first with
    ⟨approving, leftTyped, -⟩
  rcases ran_bind.mp ran with ⟨rightType, visited, second, ran⟩
  rcases approving.visit accepting infers (by simp [NodeKind.slots]) second with
    ⟨approving, rightTyped, onward⟩
  rcases ran_bind.mp ran with ⟨common, _, third, ran⟩
  cases ran
  have leftSame : visited.type? left = leftType := (onward.kept left (by simp)).trans leftTyped
  rcases approving.common_type clean leftSame rightTyped third with
    ⟨child, change, adjusted, result⟩
  apply adjusted.conclude rfl
  intro reported
  exact ⟨common, result, rfl⟩

/-- A cast notes the type that it starts from. -/
theorem concluded_cast {target inner : NodeId} {source type : Option Ty}
    (approving : Approving limit origin environment scopes node (.cast target inner source) []
      [target, inner] before state)
    (ran : Ran (cast environment infer node target inner) state type final)
    (clean : final.Clean) : Concluded environment scopes node type before final := by
  rcases ran_bind.mp ran with ⟨targetType, _, first, ran⟩
  rcases approving.visit_type (by simp [NodeKind.slots]) first with ⟨approving, targetTyped⟩
  rcases ran_bind.mp ran with ⟨sourceType, visited, second, ran⟩
  rcases approving.visit accepting infers (by simp [NodeKind.slots]) second with
    ⟨approving, sourceTyped, onward⟩
  rcases ran_bind.mp ran with ⟨_, noted, third, ran⟩
  have visits := approving.visits
  have bound : node.index < visited.size :=
    Nat.lt_of_lt_of_le (Arena.kind_bound visits.found) visits.sound.size
  have changed : noted = visited.withArena
      (visited.tree.arena.setKind node (.cast target inner sourceType)) := by
    rcases ran_bind.mp third with ⟨_, _, got, third⟩
    cases got
    rw [show visited.tree.arena.kind? node = some (.cast target inner source) from
      visits.node_same.1] at third
    cases third
    rfl
  have rewrites := rewrites_set_kind visits.sound visits.work.settled visits.node_uncovered
    (.cast target inner sourceType)
  rw [← changed] at rewrites
  have types : ∀ id, noted.type? id = visited.type? id := by
    rw [changed]
    exact fun id => Arena.type?_setKind _ _ _ _
  have allowed : final = noted ∧ type = targetType ∧
      IfKnown sourceType fun found => IfKnown targetType fun wanted =>
        found.castsTo wanted = true := by
    cases sourceType with
    | none =>
        cases ran
        exact ⟨rfl, rfl, if_known_none _⟩
    | some found =>
        cases targetType with
        | none =>
            cases ran
            exact ⟨rfl, rfl, if_known_some (if_known_none _)⟩
        | some wanted =>
            cases casts : found.castsTo wanted with
            | true =>
                simp only [casts] at ran
                cases ran
                exact ⟨rfl, rfl, if_known_some (if_known_some casts)⟩
            | false =>
                simp only [casts] at ran
                rcases ran_bind.mp ran with ⟨_, _, reported, ran⟩
                cases ran
                exact absurd clean (not_clean_of_report reported rfl)
  rcases allowed with ⟨rfl, rfl, casts⟩
  have earlier : visited.Clean := rewrites.leaves.clean clean
  rcases approving.approved earlier with ⟨inner', reported, accepted⟩
  have targetSame : final.type? target = type := by
    rw [types, onward.kept target (by simp)]
    exact targetTyped (clean_of_grown onward.grows earlier)
  have sourceSame : final.type? inner = sourceType := (types inner).trans sourceTyped
  refine ⟨.cast target inner sourceType, inner', [], ?_, ?_, ⟨?_, ?_, ?_⟩, rfl, ?_⟩
  · rw [changed]
    exact Arena.kind_set_kind bound _
  · apply accepted.later visits.work.settled (fun _ => Visits.child_covered) rewrites.leaves
    rintro id held rfl
    exact visits.node_uncovered held
  · exact sourceSame.symm
  · exact targetSame.symm
  · rw [sourceSame, targetSame]
    exact casts
  · rw [List.append_nil, ← reported, changed]
    rfl

/-- One case for each kind of expression. -/
theorem concluded_expression {type : Option Ty}
    (approving : Approving limit origin environment scopes node kind [] kind.children before before)
    (expression : kind.isExpression = true)
    (ran : Ran (anyExpression environment infer node) before type final) (clean : final.Clean) :
    Concluded environment scopes node type before final := by
  rcases ran_bind.mp ran with ⟨_, _, got, ran⟩
  cases got
  rw [show before.tree.arena.kind? node = some kind from approving.visits.node_same.1] at ran
  cases kind with
  | literal value =>
      cases ran
      exact approving.conclude clean rfl fun _ _ => rfl
  | member name =>
      rcases ran_bind.mp ran with ⟨_, _, got, ran⟩
      cases got
      split at ran
      · rename_i binding visible
        cases ran
        apply approving.conclude clean rfl
        intro inner _
        exact ⟨binding, approving.visible ▸ visible, rfl⟩
      · rcases ran_bind.mp ran with ⟨_, _, reported, ran⟩
        cases ran
        exact absurd clean (not_clean_of_report reported rfl)
  | memberAccess owner name => exact concluded_member_access accepting infers approving ran clean
  | indexAccess target index => exact concluded_index_access accepting infers approving ran clean
  | binary operator left right => exact concluded_binary accepting infers approving ran clean
  | unary operator operand => exact concluded_unary accepting infers approving ran clean
  | call name arguments => exact concluded_call accepting infers approving ran clean
  | construct type arguments => exact concluded_construct accepting infers approving ran clean
  | newArray element length => exact concluded_new_array accepting infers approving ran clean
  | cast target inner source => exact concluded_cast accepting infers approving ran clean
  | _ => cases expression

end Widening

/-- The type of a node is stored when its rule has been run. -/
theorem Concluded.typed {own : Option Ty} (concluded : Concluded environment scopes node own before
      state) (judged : Judged limit origin (fun _ => False) node kind own before state)
    (ran : Ran (setType node own) state ⟨⟩ final) :
    Approved environment scopes [node] before final := by
  rcases concluded with ⟨now, inner, added, concludes⟩
  rcases judged with ⟨middle, now', visits, rewrites, fine, slots⟩
  cases concludes.found.symm.trans fine.found
  have old := Nat.lt_of_lt_of_le (Arena.kind_bound visits.found) visits.sound.size
  have outside : ¬ (Covered origin kind.children before middle node ∨ Made middle state node) := by
    rintro (inside | ⟨new, -⟩)
    · exact visits.node_uncovered inside
    · exact Nat.not_lt.mpr new old
  have bound : node.index < state.size := Nat.lt_of_lt_of_le old rewrites.leaves.size
  have stored := rewrites_set_type rewrites.sound rewrites.settled outside own
  cases ran
  have typed : (state.tree.arena.setType node own).type? node = own := Arena.type_set_type bound _
  have types : ∀ child ∈ now.children,
      (state.tree.arena.setType node own).type? child = state.type? child := by
    intro child member
    have apart : node ≠ child := by
      rintro rfl
      exact outside (slots node member)
    exact Arena.type_of_node ((Arena.node_set_type _ _ _ _).trans (if_neg apart))
  have found : (state.tree.arena.setType node own).kind? node = some now :=
    (Arena.kind?_setType _ _ _ _).trans concludes.found
  refine ⟨inner ++ added, concludes.diagnostics, Accepted.one found ?_ ?_ ?_⟩
  · apply concludes.below.later rewrites.settled slots stored.leaves
    rintro id held rfl
    exact outside held
  · change now.Accepts environment scopes (state.tree.arena.setType node own).type?
      ((state.tree.arena.setType node own).type? node) _
    rw [typed]
    exact NodeKind.accepts_of_same_types types concludes.rule
  · change Cautioned environment _ node (now.warns (state.tree.arena.setType node own).type?) _
    rw [NodeKind.warns_of_same_types types]
    exact concludes.warned

end Rules

theorem accepting_within (constructed : origin.Constructed limit) (budget : Nat) :
    Accepting limit origin environment budget (expressionWithin environment budget) := by
  induction budget with
  | zero => exact fun node _ _ _ bound => absurd bound (Nat.not_lt_zero _)
  | succ budget ih =>
      intro node state type final bound admitted ready ran
      refine ⟨undeclared_frame.keeps_expression_within environment _ _ _ _ _ ran, fun clean => ?_⟩
      rcases admitted with ⟨kind, found, expression⟩
      have accepting : Accepting limit origin environment node.index
          (expressionWithin environment budget) :=
        fun child state type final below => ih child state type final (by omega)
      have infers : Infers limit origin (fun _ => False) node.index
          (expressionWithin environment budget) :=
        fun child state below => infers_within constructed budget child state (by omega)
      rcases ran_bind.mp ran with ⟨own, judged, rule, ran⟩
      rcases ran_bind.mp ran with ⟨_, _, typed, ran⟩
      cases ran
      have cleanly : judged.Clean := (ran_set_type typed).1.clean clean
      have concluded := concluded_expression accepting infers (.begin constructed found ready)
        expression rule cleanly
      have judges := (judged_expression infers (.begin constructed found ready.sound
        ready.untouched) expression).of_ran rule
      exact concluded.typed judges typed

/-- An expression that was inferred without an error is left accepted. -/
theorem approved_of_expression (constructed : origin.Constructed limit) {node : NodeId}
    {state final : InferenceState} {type : Option Ty}
    (admitted : origin.arena.Admitted .expression node) (ready : Ready limit origin node state)
    (ran : Ran (expression environment node) state type final) (clean : final.Clean) :
    Approved environment state.scopes [node] state final := by
  rcases ran_bind.mp ran with ⟨_, _, got, ran⟩
  cases got
  rcases id admitted with ⟨kind, found, -⟩
  have bound := Arena.kind_bound found
  have size : origin.arena.size ≤ state.tree.arena.size := ready.sound.size
  exact (accepting_within constructed _ node state type final (by omega) admitted ready ran).2 clean

end ModuleLang.Inference
