import ModuleLang.Proofs.Linked.Adding
import ModuleLang.Proofs.Typing.Assessment

/-!
Inference assesses expressions. Whatever is wrong with an expression, its inference
ends with the types and the reports of an assessment of it: the children are assessed
before the rule of the node is run, and what the rule does besides, such as putting a
cast around an operand, changes no type that was found.
-/

namespace ModuleLang.Inference

variable {limit : Position} {origin : SourceTree} {environment : Environment}

/-- The type that was found for a parsed node: a written type means what it says, also
where nothing is stored for it. -/
def known (host : Host) (tree : SourceTree) (state : InferenceState) (id : NodeId) : Option Ty :=
  match tree.arena.kind? id with
  | some (.typeRef name ranks) => host.written? name ranks
  | _ => state.type? id

section Known

variable {host : Host} {tree : SourceTree} {state other : InferenceState} {id : NodeId}

theorem known_of_type (same : other.type? id = state.type? id) :
    known host tree other id = known host tree state id := by
  unfold known
  rw [same]

theorem known_of_expression (admitted : tree.arena.Admitted .expression id) :
    known host tree state id = state.type? id := by
  rcases admitted with ⟨kind, found, expression⟩
  unfold known
  rw [found]
  cases kind with
  | typeRef => cases expression
  | _ => rfl

theorem known_of_written {name : String} {ranks : List Nat}
    (found : tree.arena.kind? id = some (.typeRef name ranks)) :
    known host tree state id = host.written? name ranks := by
  unfold known
  rw [found]

end Known

section Steps

variable {reports more : List (NodeId × DiagnosticKind)} {start middle final : InferenceState}

/-- A step that makes some reports and changes neither the names nor the types and the
spans of the nodes that there were. -/
structure Follows (environment : Environment) (reports : List (NodeId × DiagnosticKind))
    (before after : InferenceState) : Prop extends Mild before after where
  spans : ∀ id, id.index < before.size → after.span? id = before.span? id
  told : ∃ added, List.Forall₂ (Voices environment before.tree) reports added ∧
    after.diagnostics = before.diagnostics ++ added

theorem follows_refl (state : InferenceState) : Follows environment [] state state where
  toMild := mild_chain.refl state
  spans _ _ := rfl
  told := ⟨[], .nil, (List.append_nil _).symm⟩

theorem Follows.trans (first : Follows environment reports start middle)
    (second : Follows environment more middle final)
    (old : ∀ report ∈ more, report.1.index < start.size) :
    Follows environment (reports ++ more) start final where
  toMild := mild_chain.trans first.toMild second.toMild
  spans id known := (second.spans id (Nat.lt_of_lt_of_le known first.size)).trans
    (first.spans id known)
  told := by
    rcases first.told with ⟨early, told, said⟩
    rcases second.told with ⟨late, also, saidLater⟩
    refine ⟨early ++ late, List.rel_append told ?_, ?_⟩
    · refine ((List.forall₂_and_left _ _).mpr ⟨old, also⟩).imp ?_
      rintro report found ⟨bound, span, place, rfl⟩
      exact ⟨span, (first.spans _ bound).symm.trans place, rfl⟩
    · rw [saidLater, said, List.append_assoc]

theorem follows_report {node : NodeId} {kind : DiagnosticKind} {result : Unit}
    (ran : Ran (report environment node kind) start result final) :
    Follows environment [(node, kind)] start final := by
  have mild := keeps_mild_report _ _ _ _ _ ran
  rcases ran_report ran with ⟨span, place, rfl⟩
  exact ⟨mild, fun _ _ => rfl, _, .cons ⟨span, place, rfl⟩ .nil, rfl⟩

/-- A node that is added has a span of its own. -/
theorem Grows.follows {kind : NodeKind NodeId} {type : Option Ty} {source node : NodeId}
    {action : Inference NodeId} (grows : Grows kind type source action)
    (ran : Ran action start node final) : Follows environment [] start final := by
  rcases grows _ _ _ ran with ⟨-, span, -, rfl⟩
  refine ⟨⟨⟨rfl, rfl, List.prefix_refl _⟩, ?_, fun id old => ?_⟩, fun id old => ?_, [], .nil,
    (List.append_nil _).symm⟩
  · change start.tree.arena.nodes.size ≤ (start.tree.arena.nodes.push _).size
    rw [Array.size_push]
    exact Nat.le_succ _
  · apply Arena.type_of_node
    exact (Array.getElem?_push_lt old).trans (Array.getElem?_eq_getElem old).symm
  · refine (SpanTable.span_insert _ _ _ _).trans (if_neg ?_)
    rintro rfl
    exact Nat.lt_irrefl _ old

/-- Putting a cast around a child is no matter of reports. -/
theorem follows_insert_cast {parent child : NodeId} {target : Ty} {result : Unit}
    (ran : Ran (insertCast parent child target) start result final) :
    Follows environment [] start final := by
  have mild := keeps_mild_insert_cast parent child target _ _ _ ran
  rcases ran_bind.mp ran with ⟨_, _, got, ran⟩
  cases got
  rcases ran_bind.mp ran with ⟨written, first, wrote, ran⟩
  rcases ran_bind.mp ran with ⟨cast, second, added, ran⟩
  rcases ran_bind.mp ran with ⟨_, third, replaced, typed⟩
  rcases ran_replaced replaced with ⟨before, after, -, -, rfl⟩
  cases typed
  have spelled : Follows environment [] start first := (grows_type_ref _ _).follows wrote
  have whole := spelled.trans ((grows_add _ _).follows added) (List.forall_mem_nil _)
  exact ⟨mild, whole.spans, whole.told⟩

theorem follows_check_index {parent index : NodeId} {type : Option Ty} {result : Unit}
    (ran : Ran (checkIndex environment parent index type) start result final) :
    Follows environment (indexReports index type) start final := by
  cases type with
  | none =>
      cases ran
      exact follows_refl _
  | some type =>
      simp only [checkIndex] at ran
      simp only [indexReports]
      by_cases same : type = .int
      · rw [if_pos same] at ran ⊢
        cases ran
        exact follows_refl _
      · rw [if_neg same] at ran ⊢
        by_cases widens : type.widensTo .int = true
        · rw [if_pos widens] at ran ⊢
          exact follows_insert_cast ran
        · rw [if_neg widens] at ran ⊢
          exact follows_report ran

/-- Two operands come to one type, with a cast around at most one of them. -/
theorem follows_common_type {node left right : NodeId} {operator : BinaryOperator}
    {leftType rightType common : Option Ty}
    (ran : Ran (commonType environment node operator left right leftType rightType) start common
      final) :
    Follows environment (commonFinding node operator leftType rightType).reports start final ∧
      (commonFinding node operator leftType rightType).type = common := by
  cases types : operator.category.operandTypes? leftType rightType with
  | none =>
      simp only [commonType, types] at ran
      simp only [commonFinding, types]
      cases ran
      exact ⟨follows_refl _, rfl⟩
  | some pair =>
      rcases pair with ⟨first, second⟩
      simp only [commonType, types] at ran
      simp only [commonFinding, types, fittingFinding]
      cases fit : operator.category.operandFit first second with
      | fit =>
          simp only [fit] at ran ⊢
          cases ran
          exact ⟨follows_refl _, rfl⟩
      | reject =>
          simp only [fit] at ran ⊢
          rcases ran_bind.mp ran with ⟨_, _, reported, ran⟩
          cases ran
          exact ⟨follows_report reported, rfl⟩
      | unify =>
          simp only [fit, unify] at ran ⊢
          cases promotion : promote first second with
          | same =>
              simp only [promotion] at ran ⊢
              cases ran
              exact ⟨follows_refl _, rfl⟩
          | castLeft type | castRight type =>
              simp only [promotion] at ran ⊢
              rcases ran_bind.mp ran with ⟨_, _, widened, ran⟩
              cases ran
              exact ⟨follows_insert_cast widened, rfl⟩
          | incompatible =>
              simp only [promotion] at ran ⊢
              rcases ran_bind.mp ran with ⟨_, _, reported, ran⟩
              cases ran
              exact ⟨follows_report reported, rfl⟩

/-- Only arrays of one dimension give an element. -/
theorem follows_element {node target : NodeId} {targetType found : Option Ty}
    (ran : Ran (match targetType with
      | none => return none
      | some (.array element 1) => return some element
      | some (.array _ _) => do
          report environment node .multiDimensionalIndexer
          return none
      | some other => do
          report environment target (.indexerNotApplicable other.text)
          return none) start found final) :
    Follows environment (elementFinding node target targetType).reports start final ∧
      (elementFinding node target targetType).type = found := by
  split at ran
  · cases ran
    exact ⟨follows_refl _, rfl⟩
  · cases ran
    exact ⟨follows_refl _, rfl⟩
  · rename_i element rank several
    rcases ran_bind.mp ran with ⟨_, _, reported, ran⟩
    cases ran
    rw [elementFinding, if_neg several]
    exact ⟨follows_report reported, rfl⟩
  · rename_i other _ plain
    rcases ran_bind.mp ran with ⟨_, _, reported, ran⟩
    cases ran
    cases other with
    | array element rank => exact absurd rfl (plain element rank)
    | _ => exact ⟨follows_report reported, rfl⟩

theorem follows_set_cast_source {node : NodeId} {source : Option Ty} {result : Unit}
    (ran : Ran (setCastSource node source) start result final) :
    Follows environment [] start final := by
  have mild := keeps_mild_set_cast_source _ _ _ _ _ ran
  rcases ran_bind.mp ran with ⟨_, _, got, ran⟩
  cases got
  split at ran
  · cases ran
    exact ⟨mild, fun _ _ => rfl, [], .nil, (List.append_nil _).symm⟩
  · cases ran
    exact follows_refl _

end Steps

section Rules

variable {infer : NodeId → Inference (Option Ty)} {node child : NodeId} {kind : NodeKind NodeId}
  {done rest : List NodeId} {scopes : Scopes} {before state final : InferenceState}

/-- Between two states nodes were assessed, and what is said about them was reported. -/
def Told (environment : Environment) (names : Scopes) (origin : SourceTree) (nodes : List NodeId)
    (before after : InferenceState) : Prop :=
  ∃ said, Assessed environment names origin (known environment.host origin after) nodes said ∧
    after.diagnostics = before.diagnostics ++ said

/-- A written type is resolved, or it is reported and means nothing. -/
theorem told_of_resolve {type : Option Ty} (names : Scopes)
    (admitted : origin.arena.Admitted .type child)
    (untouched : Untouched origin (Below origin [child]) state)
    (ran : Ran (resolveType environment child) state type final) :
    Told environment names origin [child] state final ∧
      known environment.host origin final child = type := by
  have inside : Below origin [child] child := below_singleton.mpr .refl
  rcases admitted with ⟨kind, found, admits⟩
  cases kind with
  | typeRef name ranks =>
      have means : known environment.host origin final child = environment.host.written? name ranks :=
        known_of_written found
      have here : state.tree.arena.kind? child = some (.typeRef name ranks) :=
        (untouched.kind child inside).trans found
      rcases ran_bind.mp ran with ⟨_, _, got, ran⟩
      cases got
      rw [here] at ran
      dsimp only at ran
      split at ran
      · rename_i absent
        rcases ran_bind.mp ran with ⟨_, _, reported, ran⟩
        cases ran
        rw [Host.written?, absent] at means
        rcases ran_report reported with ⟨span, place, rfl⟩
        have voiced : Voices environment origin (child, .typeNotFound name)
            ⟨.typeNotFound name, span, environment.fileName⟩ :=
          ⟨span, (untouched.span child inside).symm.trans place, rfl⟩
        refine ⟨⟨_, Assessed.one found .nil ?_ (.cons voiced .nil), rfl⟩, means⟩
        rw [means, NodeKind.finding, writtenFinding, Host.written?, absent]
        rfl
      · rename_i base resolved
        rcases ran_bind.mp ran with ⟨_, _, stored, ran⟩
        cases ran
        cases stored
        rw [Host.written?, resolved] at means
        refine ⟨⟨_, Assessed.one found .nil ?_ .nil, (List.append_nil _).symm⟩, means⟩
        rw [means, NodeKind.finding, writtenFinding, Host.written?, resolved]
        rfl
  | _ => cases admits

/-- The inference of subexpressions with a number below `bound` assesses them. -/
def Assesses (limit : Position) (origin : SourceTree) (environment : Environment) (bound : Nat)
    (infer : NodeId → Inference (Option Ty)) : Prop :=
  ∀ node state type final, node.index < bound → origin.arena.Admitted .expression node →
    Ready limit origin node state → Ran (infer node) state type final →
    Undeclared state final ∧ Told environment state.scopes origin [node] state final

/-- Children of a node are visited one after the other, and those that were visited are
assessed. -/
structure Assessing (limit : Position) (origin : SourceTree) (environment : Environment)
    (scopes : Scopes) (node : NodeId) (kind : NodeKind NodeId) (done rest : List NodeId)
    (before state : InferenceState) : Prop where
  visits : Visits limit origin (fun _ => False) node kind done rest before state
  visible : state.scopes = scopes
  told : Told environment scopes origin done before state

/-- The rule of a node was run, and its type is still to be stored. -/
def Ruling (environment : Environment) (scopes : Scopes) (origin : SourceTree) (node : NodeId)
    (kind : NodeKind NodeId) (own : Option Ty) (before after : InferenceState) : Prop :=
  ∃ inner reports added,
    Assessed environment scopes origin (known environment.host origin after) kind.children inner ∧
    kind.finding environment scopes (known environment.host origin after) (!inner.isEmpty) node =
      ⟨own, reports⟩ ∧
    List.Forall₂ (Voices environment origin) reports added ∧
    after.diagnostics = before.diagnostics ++ (inner ++ added)

namespace Assessing

theorem begin (constructed : origin.Constructed limit)
    (found : origin.arena.kind? node = some kind) (ready : Ready limit origin node state) :
    Assessing limit origin environment state.scopes node kind [] kind.children state state :=
  ⟨.begin constructed found ready.sound ready.untouched, rfl, [], .nil,
    (List.append_nil _).symm⟩

/-- What was found stays found while the next child is worked on. -/
theorem kept (assessing : Assessing limit origin environment scopes node kind done (child :: rest)
      before state) (work : Passed limit origin [child] state final) {id : NodeId}
    (inside : Below origin done id) (host : Host) :
    known host origin final id = known host origin state id := by
  have visits := assessing.visits
  have bound := below_bounded visits.constructed (fun earlier member =>
    visits.child_bound (List.mem_append_left _ member)) inside
  have old := Nat.lt_of_lt_of_le bound visits.sound.size
  exact known_of_type (Arena.type_of_node
    (work.leaves.node id old (visits.next_apart inside)))

theorem next (assessing : Assessing limit origin environment scopes node kind done (child :: rest)
      before state) (work : Passed limit origin [child] state final) (same : Undeclared state final)
    (told : Told environment scopes origin [child] state final) :
    Assessing limit origin environment scopes node kind (done ++ [child]) rest before final where
  visits := assessing.visits.next work
  visible := same.scopes.trans assessing.visible
  told := by
    rcases assessing.told with ⟨early, assessed, said⟩
    rcases told with ⟨late, also, saidLater⟩
    refine ⟨early ++ late, .append ?_ also, ?_⟩
    · exact assessed.of_same_types fun id inside => assessing.kept work inside _
    · rw [saidLater, said, List.append_assoc]

/-- Once all children are visited, steps that make the reports of the rule may follow. -/
theorem conclude {own : Option Ty} {reports : List (NodeId × DiagnosticKind)}
    (assessing : Assessing limit origin environment scopes node kind kind.children [] before state)
    (follows : Follows environment reports state final)
    (about : ∀ report ∈ reports, report.1 ∈ node :: kind.children)
    (finds : ∀ inner, state.diagnostics = before.diagnostics ++ inner →
      kind.finding environment scopes (known environment.host origin state) (!inner.isEmpty) node =
        ⟨own, reports⟩) :
    Ruling environment scopes origin node kind own before final := by
  have visits := assessing.visits
  rcases assessing.told with ⟨inner, assessed, said⟩
  rcases follows.told with ⟨added, told, saidLater⟩
  have same : ∀ id, Below origin kind.children id →
      known environment.host origin final id = known environment.host origin state id := by
    intro id inside
    have bound := below_bounded visits.constructed (fun child member =>
      visits.child_bound (List.mem_append_left _ member)) inside
    exact known_of_type (follows.types id (Nat.lt_of_lt_of_le bound visits.sound.size))
  have places : ∀ id ∈ node :: kind.children, state.span? id = origin.spans.span? id := by
    intro id member
    rcases List.mem_cons.mp member with rfl | member
    · exact visits.node_same.2
    · exact visits.work.spans id member
  refine ⟨inner, reports, added, assessed.of_same_types same, ?_, ?_, ?_⟩
  · rw [NodeKind.finding_of_same_types fun child member => same child ⟨child, member, .refl⟩]
    exact finds inner said
  · refine ((List.forall₂_and_left _ _).mpr ⟨about, told⟩).imp ?_
    rintro report found ⟨member, span, place, rfl⟩
    exact ⟨span, (places _ member).symm.trans place, rfl⟩
  · rw [saidLater, said, List.append_assoc]

section Visiting

variable (assesses : Assesses limit origin environment node.index infer)
  (infers : Infers limit origin (fun _ => False) node.index infer)

include assesses infers in
/-- A child that is visited next, and the type that is found for it. -/
theorem visit {type : Option Ty}
    (assessing : Assessing limit origin environment scopes node kind done (child :: rest) before
      state) (slot : (Category.expression, child) ∈ kind.slots)
    (ran : Ran (infer child) state type final) :
    Assessing limit origin environment scopes node kind (done ++ [child]) rest before final ∧
      known environment.host origin final child = type ∧ ∀ earlier ∈ done,
      known environment.host origin final earlier =
        known environment.host origin state earlier := by
  have visits := assessing.visits
  have below := visits.below_index (List.mem_append_right done (List.mem_cons_self (l := rest)))
  have admitted := visits.constructed.admitted visits.found _ slot
  have untouched := visits.next_untouched
  rcases (infers child state below admitted visits.sound untouched).of_ran ran with ⟨work, typed⟩
  rcases assesses child state type final below admitted ⟨visits.sound, untouched⟩ ran with
    ⟨same, told⟩
  rw [assessing.visible] at told
  refine ⟨assessing.next work same told, (known_of_expression admitted).trans typed, ?_⟩
  intro earlier member
  exact assessing.kept work ⟨earlier, member, .refl⟩ _

/-- A written type that is visited next. -/
theorem visit_type {type : Option Ty}
    (assessing : Assessing limit origin environment scopes node kind done (child :: rest) before
      state) (slot : (Category.type, child) ∈ kind.slots)
    (ran : Ran (resolveType environment child) state type final) :
    Assessing limit origin environment scopes node kind (done ++ [child]) rest before final ∧
      known environment.host origin final child = type := by
  have visits := assessing.visits
  have admitted := visits.constructed.admitted visits.found _ slot
  have untouched := visits.next_untouched
  rcases (yields_resolve_type (fun _ => False) visits.constructed admitted visits.sound
    untouched).of_ran ran with ⟨work, -⟩
  have same := undeclared_frame.keeps_resolve_type environment child _ _ _ ran
  rcases told_of_resolve scopes admitted untouched ran with ⟨told, typed⟩
  exact ⟨assessing.next work same told, typed⟩

include assesses infers in
theorem visit_all {types : List (Option Ty)} {arguments : List NodeId}
    (assessing : Assessing limit origin environment scopes node kind done arguments before state)
    (slots : ∀ argument ∈ arguments, (Category.expression, argument) ∈ kind.slots)
    (ran : Ran (arguments.mapM infer) state types final) :
    Assessing limit origin environment scopes node kind (done ++ arguments) [] before final ∧
      arguments.map (known environment.host origin final) = types ∧ ∀ earlier ∈ done,
      known environment.host origin final earlier =
        known environment.host origin state earlier := by
  induction arguments generalizing done state types with
  | nil =>
      rw [List.mapM_nil] at ran
      cases ran
      rw [List.append_nil]
      exact ⟨assessing, rfl, fun _ _ => rfl⟩
  | cons argument arguments ih =>
      rw [List.mapM_cons] at ran
      rcases ran_bind.mp ran with ⟨_, _, first, ran⟩
      rcases ran_bind.mp ran with ⟨_, _, more, ran⟩
      cases ran
      rcases assessing.visit assesses infers (slots argument List.mem_cons_self) first with
        ⟨later, typed, kept⟩
      rcases ih later (fun other member => slots other (List.mem_cons_of_mem _ member)) more with
        ⟨whole, types, still⟩
      rw [List.append_assoc, List.singleton_append] at whole
      refine ⟨whole, ?_, fun earlier member => ?_⟩
      · rw [List.map_cons, types, still argument (by simp), typed]
      · exact (still earlier (by simp [member])).trans (kept earlier member)

include assesses infers in
theorem visit_each {arguments : List NodeId} {result : Unit}
    (assessing : Assessing limit origin environment scopes node kind done arguments before state)
    (slots : ∀ argument ∈ arguments, (Category.expression, argument) ∈ kind.slots)
    (ran : Ran (arguments.forM fun argument => do let _ ← infer argument) state result final) :
    Assessing limit origin environment scopes node kind (done ++ arguments) [] before final ∧
      ∀ earlier ∈ done, known environment.host origin final earlier =
        known environment.host origin state earlier := by
  induction arguments generalizing done state with
  | nil =>
      cases ran
      rw [List.append_nil]
      exact ⟨assessing, fun _ _ => rfl⟩
  | cons argument arguments ih =>
      rcases ran_bind.mp ran with ⟨_, _, head, tail⟩
      rcases ran_bind.mp head with ⟨_, _, head, done'⟩
      cases done'
      rcases assessing.visit assesses infers (slots argument List.mem_cons_self) head with
        ⟨later, -, kept⟩
      rcases ih later (fun other member => slots other (List.mem_cons_of_mem _ member)) tail with
        ⟨whole, still⟩
      rw [List.append_assoc, List.singleton_append] at whole
      exact ⟨whole, fun earlier member =>
        (still earlier (by simp [member])).trans (kept earlier member)⟩

end Visiting

end Assessing

section Kinds

variable (assesses : Assesses limit origin environment node.index infer)
  (infers : Infers limit origin (fun _ => False) node.index infer)

theorem index_reports_about {index : NodeId} {type : Option Ty} :
    ∀ report ∈ indexReports index type, report.1 = index := by
  unfold indexReports
  split
  · exact List.forall_mem_nil _
  · split
    · exact List.forall_mem_nil _
    · split
      · exact List.forall_mem_nil _
      · exact List.forall_mem_singleton.mpr rfl

theorem element_finding_about {target : NodeId} {type : Option Ty} :
    ∀ report ∈ (elementFinding node target type).reports, report.1 ∈ [node, target] := by
  unfold elementFinding
  split
  · exact List.forall_mem_nil _
  · split
    · exact List.forall_mem_nil _
    · exact List.forall_mem_singleton.mpr (by simp)
  · exact List.forall_mem_singleton.mpr (by simp)

theorem common_finding_about {operator : BinaryOperator} {left right : Option Ty} :
    ∀ report ∈ (commonFinding node operator left right).reports, report.1 = node := by
  unfold commonFinding fittingFinding
  split
  · exact List.forall_mem_nil _
  · split
    · exact List.forall_mem_nil _
    · exact List.forall_mem_singleton.mpr rfl
    · split
      · exact List.forall_mem_nil _
      · exact List.forall_mem_nil _
      · exact List.forall_mem_nil _
      · exact List.forall_mem_singleton.mpr rfl

include assesses infers

theorem ruling_member_access {owner : NodeId} {name : String} {type : Option Ty}
    (assessing : Assessing limit origin environment scopes node (.memberAccess owner name) []
      [owner] before state)
    (ran : Ran (memberAccess environment infer node owner name) state type final) :
    Ruling environment scopes origin node (.memberAccess owner name) type before final := by
  rcases ran_bind.mp ran with ⟨found, visited, first, ran⟩
  rcases assessing.visit assesses infers (by simp [NodeKind.slots]) first with
    ⟨assessing, typed, -⟩
  cases found with
  | none =>
      cases ran
      apply assessing.conclude (follows_refl _) (List.forall_mem_nil _)
      intro inner _
      simp only [NodeKind.finding, typed, memberFinding]
  | some ownerType =>
      simp only at ran
      split at ran
      · rename_i resolved
        cases ran
        apply assessing.conclude (follows_refl _) (List.forall_mem_nil _)
        intro inner _
        simp only [NodeKind.finding, typed, memberFinding, resolved]
      · rename_i absent
        rcases ran_bind.mp ran with ⟨_, _, reported, ran⟩
        cases ran
        apply assessing.conclude (follows_report reported)
          (List.forall_mem_singleton.mpr List.mem_cons_self)
        intro inner _
        simp only [NodeKind.finding, typed, memberFinding, absent]

theorem ruling_index_access {target index : NodeId} {type : Option Ty}
    (assessing : Assessing limit origin environment scopes node (.indexAccess target index) []
      [target, index] before state)
    (ran : Ran (indexAccess environment infer node target index) state type final) :
    Ruling environment scopes origin node (.indexAccess target index) type before final := by
  rcases ran_bind.mp ran with ⟨targetType, _, first, ran⟩
  rcases assessing.visit assesses infers (by simp [NodeKind.slots]) first with
    ⟨assessing, targetTyped, -⟩
  rcases ran_bind.mp ran with ⟨indexType, indexed, second, ran⟩
  rcases assessing.visit assesses infers (by simp [NodeKind.slots]) second with
    ⟨assessing, indexTyped, kept⟩
  have targetTyped := (kept target (by simp)).trans targetTyped
  rcases ran_bind.mp ran with ⟨_, checked, third, ran⟩
  have follows := follows_check_index third
  rcases follows_element ran with ⟨later, rfl⟩
  have within : ∀ report ∈ (elementFinding node target targetType).reports,
      report.1 ∈ node :: (NodeKind.indexAccess target index).children := by
    intro report member
    have about := element_finding_about report member
    simp only [NodeKind.children, List.mem_cons, List.not_mem_nil, or_false] at about ⊢
    rcases about with same | same
    · exact Or.inl same
    · exact Or.inr (Or.inl same)
  refine assessing.conclude (follows.trans later fun report member => ?_) ?_ fun inner _ => ?_
  · have visits := assessing.visits
    have old := visits.sound.size
    rcases List.mem_cons.mp (within report member) with same | inside
    · rw [same]
      exact Nat.lt_of_lt_of_le (Arena.kind_bound visits.found) old
    · exact Nat.lt_of_lt_of_le (visits.child_bound (List.mem_append_left _ inside)) old
  · intro report member
    rcases List.mem_append.mp member with member | member
    · rw [index_reports_about report member]
      simp [NodeKind.children]
    · exact within report member
  · simp only [NodeKind.finding, targetTyped, indexTyped]

theorem ruling_binary {operator : BinaryOperator} {left right : NodeId} {type : Option Ty}
    (assessing : Assessing limit origin environment scopes node (.binary operator left right) []
      [left, right] before state)
    (ran : Ran (binary environment infer node operator left right) state type final) :
    Ruling environment scopes origin node (.binary operator left right) type before final := by
  rcases ran_bind.mp ran with ⟨leftType, _, first, ran⟩
  rcases assessing.visit assesses infers (by simp [NodeKind.slots]) first with
    ⟨assessing, leftTyped, -⟩
  rcases ran_bind.mp ran with ⟨rightType, _, second, ran⟩
  rcases assessing.visit assesses infers (by simp [NodeKind.slots]) second with
    ⟨assessing, rightTyped, kept⟩
  have leftTyped := (kept left (by simp)).trans leftTyped
  rcases ran_bind.mp ran with ⟨common, _, third, ran⟩
  cases ran
  rcases follows_common_type third with ⟨follows, rfl⟩
  refine assessing.conclude follows (fun report member => ?_) fun inner _ => ?_
  · rw [common_finding_about report member]
    exact List.mem_cons_self
  · simp only [NodeKind.finding, leftTyped, rightTyped]

theorem ruling_unary {operator : UnaryOperator} {operand : NodeId} {type : Option Ty}
    (assessing : Assessing limit origin environment scopes node (.unary operator operand) []
      [operand] before state)
    (ran : Ran (unary environment infer node operator operand) state type final) :
    Ruling environment scopes origin node (.unary operator operand) type before final := by
  rcases ran_bind.mp ran with ⟨found, visited, first, ran⟩
  rcases assessing.visit assesses infers (by simp [NodeKind.slots]) first with
    ⟨assessing, typed, -⟩
  cases found with
  | none =>
      cases ran
      apply assessing.conclude (follows_refl _) (List.forall_mem_nil _)
      intro inner _
      simp only [NodeKind.finding, typed, unaryFinding]
  | some operandType =>
      simp only at ran
      split at ran
      · rename_i refused
        rcases ran_bind.mp ran with ⟨_, _, reported, ran⟩
        cases ran
        rw [Bool.not_eq_true'] at refused
        apply assessing.conclude (follows_report reported)
          (List.forall_mem_singleton.mpr List.mem_cons_self)
        intro inner _
        simp only [NodeKind.finding, typed, unaryFinding, refused, Bool.false_eq_true, if_false]
      · rename_i taken
        cases ran
        rw [Bool.not_eq_true, Bool.not_eq_false'] at taken
        apply assessing.conclude (follows_refl _) (List.forall_mem_nil _)
        intro inner _
        simp only [NodeKind.finding, typed, unaryFinding, taken, if_true]

theorem ruling_call {name : String} {arguments : List NodeId} {type : Option Ty}
    (assessing : Assessing limit origin environment scopes node (.call name arguments) []
      arguments before before)
    (ran : Ran (call environment infer node name arguments) before type final) :
    Ruling environment scopes origin node (.call name arguments) type before final := by
  rcases ran_bind.mp ran with ⟨_, _, got, ran⟩
  cases got
  rcases ran_bind.mp ran with ⟨types, visited, first, ran⟩
  rcases assessing.visit_all assesses infers
    (fun argument member => by simp [NodeKind.slots, member]) first with ⟨assessing, typed, -⟩
  rcases ran_bind.mp ran with ⟨_, _, got, ran⟩
  cases got
  have counts : ∀ {inner}, visited.diagnostics = before.diagnostics ++ inner →
      decide (before.diagnostics.length < visited.diagnostics.length) = !inner.isEmpty := by
    intro inner said
    rw [said, List.length_append]
    cases inner <;> simp
  have sized : types.length = arguments.length := by
    rw [← typed, List.length_map]
  dsimp only at ran
  split at ran
  · rename_i signature found
    cases ran
    apply assessing.conclude (follows_refl _) (List.forall_mem_nil _)
    intro inner _
    simp only [NodeKind.finding, typed, callFinding, found]
  · rename_i absent
    split at ran
    · rename_i faulty
      rcases ran_bind.mp ran with ⟨_, _, reported, ran⟩
      cases ran
      apply assessing.conclude (follows_report reported)
        (List.forall_mem_singleton.mpr List.mem_cons_self)
      intro inner said
      rw [counts said, Bool.not_eq_true', ← sized] at faulty
      simp only [NodeKind.finding, typed, callFinding, absent, faulty, Bool.false_eq_true, if_false]
    · rename_i excused
      cases ran
      apply assessing.conclude (follows_refl _) (List.forall_mem_nil _)
      intro inner said
      rw [counts said, Bool.not_eq_true, Bool.not_eq_false', ← sized] at excused
      simp only [NodeKind.finding, typed, callFinding, absent, excused, if_true]

theorem ruling_construct {written : NodeId} {arguments : List NodeId} {type : Option Ty}
    (assessing : Assessing limit origin environment scopes node (.construct written arguments) []
      (written :: arguments) before state)
    (ran : Ran (do
      let constructed ← resolveType environment written
      arguments.forM fun argument => do let _ ← infer argument
      return constructed) state type final) :
    Ruling environment scopes origin node (.construct written arguments) type before final := by
  rcases ran_bind.mp ran with ⟨found, resolved, first, ran⟩
  rcases assessing.visit_type (by simp [NodeKind.slots]) first with ⟨assessing, typed⟩
  rcases ran_bind.mp ran with ⟨_, _, visited, ran⟩
  cases ran
  rcases assessing.visit_each assesses infers
    (fun argument member => by simp [NodeKind.slots, member]) visited with ⟨assessing, kept⟩
  apply assessing.conclude (follows_refl _) (List.forall_mem_nil _)
  intro inner _
  simp only [NodeKind.finding, kept written (by simp), typed]

theorem ruling_new_array {element length : NodeId} {type : Option Ty}
    (assessing : Assessing limit origin environment scopes node (.newArray element length) []
      [element, length] before state)
    (ran : Ran (newArray environment infer node element length) state type final) :
    Ruling environment scopes origin node (.newArray element length) type before final := by
  rcases ran_bind.mp ran with ⟨elementType, _, first, ran⟩
  rcases assessing.visit_type (by simp [NodeKind.slots]) first with ⟨assessing, elementTyped⟩
  rcases ran_bind.mp ran with ⟨lengthType, _, second, ran⟩
  rcases assessing.visit assesses infers (by simp [NodeKind.slots]) second with
    ⟨assessing, lengthTyped, kept⟩
  have elementTyped := (kept element (by simp)).trans elementTyped
  rcases ran_bind.mp ran with ⟨_, _, third, ran⟩
  cases ran
  refine assessing.conclude (follows_check_index third) (fun report member => ?_) fun inner _ => ?_
  · rw [index_reports_about report member]
    simp [NodeKind.children]
  · simp only [NodeKind.finding, elementTyped, lengthTyped]

theorem ruling_cast {target inner : NodeId} {source type : Option Ty}
    (assessing : Assessing limit origin environment scopes node (.cast target inner source) []
      [target, inner] before state)
    (ran : Ran (cast environment infer node target inner) state type final) :
    Ruling environment scopes origin node (.cast target inner source) type before final := by
  rcases ran_bind.mp ran with ⟨targetType, _, first, ran⟩
  rcases assessing.visit_type (by simp [NodeKind.slots]) first with ⟨assessing, targetTyped⟩
  rcases ran_bind.mp ran with ⟨sourceType, visited, second, ran⟩
  rcases assessing.visit assesses infers (by simp [NodeKind.slots]) second with
    ⟨assessing, sourceTyped, kept⟩
  have targetTyped := (kept target (by simp)).trans targetTyped
  rcases ran_bind.mp ran with ⟨_, noted, third, ran⟩
  have follows : Follows environment [] visited noted := follows_set_cast_source third
  have quiet : type = targetType → castReports node sourceType targetType = [] → final = noted →
      Ruling environment scopes origin node (.cast target inner source) type before final := by
    rintro rfl silent rfl
    apply assessing.conclude follows (List.forall_mem_nil _)
    intro inner _
    simp only [NodeKind.finding, targetTyped, sourceTyped, silent]
  cases sourceType with
  | none =>
      cases ran
      exact quiet rfl rfl rfl
  | some sourceType =>
      cases targetType with
      | none =>
          cases ran
          exact quiet rfl rfl rfl
      | some targetType =>
          simp only at ran
          split at ran
          · rename_i refused
            rcases ran_bind.mp ran with ⟨_, _, reported, ran⟩
            cases ran
            rw [Bool.not_eq_true'] at refused
            have bound : node.index < visited.size :=
              Nat.lt_of_lt_of_le (Arena.kind_bound assessing.visits.found) assessing.visits.sound.size
            apply assessing.conclude (follows.trans (follows_report reported)
              (List.forall_mem_singleton.mpr bound))
              (List.forall_mem_singleton.mpr List.mem_cons_self)
            intro inner _
            simp only [NodeKind.finding, targetTyped, sourceTyped, castReports, refused,
              Bool.false_eq_true, if_false, List.nil_append]
          · rename_i allowed
            cases ran
            rw [Bool.not_eq_true, Bool.not_eq_false'] at allowed
            exact quiet rfl (by rw [castReports, if_pos allowed]) rfl

/-- One case for each kind of expression. -/
theorem ruling_expression {type : Option Ty}
    (assessing : Assessing limit origin environment scopes node kind [] kind.children before before)
    (expression : kind.isExpression = true)
    (ran : Ran (anyExpression environment infer node) before type final) :
    Ruling environment scopes origin node kind type before final := by
  rcases ran_bind.mp ran with ⟨_, _, got, ran⟩
  cases got
  rw [show before.tree.arena.kind? node = some kind from assessing.visits.node_same.1] at ran
  cases kind with
  | literal value =>
      cases ran
      exact assessing.conclude (follows_refl _) (List.forall_mem_nil _) fun _ _ => rfl
  | member name =>
      rcases ran_bind.mp ran with ⟨_, _, got, ran⟩
      cases got
      rw [assessing.visible] at ran
      split at ran
      · rename_i binding visible
        cases ran
        apply assessing.conclude (follows_refl _) (List.forall_mem_nil _)
        intro inner _
        simp only [NodeKind.finding, visible]
      · rename_i unseen
        rcases ran_bind.mp ran with ⟨_, _, reported, ran⟩
        cases ran
        apply assessing.conclude (follows_report reported)
          (List.forall_mem_singleton.mpr List.mem_cons_self)
        intro inner _
        simp only [NodeKind.finding, unseen]
  | memberAccess owner name => exact ruling_member_access assesses infers assessing ran
  | indexAccess target index => exact ruling_index_access assesses infers assessing ran
  | binary operator left right => exact ruling_binary assesses infers assessing ran
  | unary operator operand => exact ruling_unary assesses infers assessing ran
  | call name arguments => exact ruling_call assesses infers assessing ran
  | construct type arguments => exact ruling_construct assesses infers assessing ran
  | newArray element length => exact ruling_new_array assesses infers assessing ran
  | cast target inner source => exact ruling_cast assesses infers assessing ran
  | _ => cases expression

end Kinds

/-- The type of a node is stored when its rule has been run. -/
theorem Ruling.typed {own : Option Ty} (ruling : Ruling environment scopes origin node kind own before
      state) (constructed : origin.Constructed limit)
    (found : origin.arena.kind? node = some kind) (expression : kind.isExpression = true)
    (bound : node.index < state.size) (ran : Ran (setType node own) state ⟨⟩ final) :
    Told environment scopes origin [node] before final := by
  rcases ruling with ⟨inner, reports, added, assessed, finds, told, said⟩
  cases ran
  have apart : ∀ id, Below origin kind.children id → node ≠ id := by
    rintro id ⟨child, member, path⟩ rfl
    rw [← Arena.children_of_kind found] at member
    exact constructed.forest.parent_not_below member path
  have same : ∀ id, Below origin kind.children id →
      known environment.host origin (state.withArena (state.tree.arena.setType node own)) id =
        known environment.host origin state id := fun id inside =>
    known_of_type (Arena.type_of_node
      ((Arena.node_set_type _ _ _ _).trans (if_neg (apart id inside))))
  have typed : known environment.host origin (state.withArena (state.tree.arena.setType node own))
      node = own :=
    (known_of_expression ⟨kind, found, expression⟩).trans (Arena.type_set_type bound _)
  refine ⟨inner ++ added, Assessed.one found (assessed.of_same_types same) ?_ told, said⟩
  refine Eq.trans (NodeKind.finding_of_same_types fun child member =>
    same child ⟨child, member, .refl⟩) (finds.trans ?_)
  exact congrArg (Finding.mk · reports) typed.symm

end Rules

theorem assesses_within (constructed : origin.Constructed limit) (budget : Nat) :
    Assesses limit origin environment budget (expressionWithin environment budget) := by
  induction budget with
  | zero => exact fun node _ _ _ bound => absurd bound (Nat.not_lt_zero _)
  | succ budget ih =>
      intro node state type final bound admitted ready ran
      refine ⟨undeclared_frame.keeps_expression_within environment _ _ _ _ _ ran, ?_⟩
      rcases admitted with ⟨kind, found, expression⟩
      have assesses : Assesses limit origin environment node.index
          (expressionWithin environment budget) :=
        fun child state type final below => ih child state type final (by omega)
      have infers : Infers limit origin (fun _ => False) node.index
          (expressionWithin environment budget) :=
        fun child state below => infers_within constructed budget child state (by omega)
      rcases ran_bind.mp ran with ⟨own, judged, rule, ran⟩
      rcases ran_bind.mp ran with ⟨_, _, typed, ran⟩
      cases ran
      have judges := (judged_expression infers (.begin constructed found ready.sound
        ready.untouched) expression).of_ran rule
      have old : node.index < judged.size :=
        Nat.lt_of_lt_of_le (Arena.kind_bound found) judges.sound.size
      exact (ruling_expression assesses infers (.begin constructed found ready) expression rule).typed
        constructed found expression old typed

/-- The inference of an expression ends with an assessment of it. -/
theorem told_of_expression (constructed : origin.Constructed limit) {node : NodeId}
    {state final : InferenceState} {type : Option Ty}
    (admitted : origin.arena.Admitted .expression node) (ready : Ready limit origin node state)
    (whole : Ran (expression environment node) state type final) :
    Told environment state.scopes origin [node] state final ∧ final.type? node = type := by
  rcases ran_bind.mp whole with ⟨_, _, got, ran⟩
  cases got
  rcases id admitted with ⟨kind, found, -⟩
  have bound := Arena.kind_bound found
  have size : origin.arena.size ≤ state.tree.arena.size := ready.sound.size
  have enough : node.index < 2 * state.tree.arena.size + 2 := by omega
  exact ⟨(assesses_within constructed _ node state type final enough admitted ready ran).2,
    ((yields_expression (fun _ => False) constructed admitted ready.sound ready.untouched).of_ran
      whole).2⟩

end ModuleLang.Inference
