import ModuleLang.Proofs.Typing.Acceptance
import ModuleLang.Proofs.Typing.Grafting
import ModuleLang.Proofs.Typing.Walk

/-!
Inference once more over expressions that it accepts. A rule that is run on accepted
children finds the type that is recorded for its node, reports what was reported
before, and changes nothing: no operand has to be widened any more, and the types that
it stores are there already.
-/

namespace ModuleLang

namespace Arena

theorem set_type_same (arena : Arena) (id : NodeId) : arena.setType id (arena.type? id) = arena := by
  rcases arena with ⟨nodes⟩
  apply congrArg Arena.mk
  apply Array.ext_getElem?
  intro position
  rw [Array.getElem?_modify]
  split
  · rename_i same
    subst same
    simp only [type?, node?]
    cases nodes[id.index]? <;> rfl
  · rfl

theorem set_kind_same {arena : Arena} {id : NodeId} {kind : NodeKind NodeId}
    (found : arena.kind? id = some kind) : arena.setKind id kind = arena := by
  rcases arena with ⟨nodes⟩
  apply congrArg Arena.mk
  apply Array.ext_getElem?
  intro position
  rw [Array.getElem?_modify]
  split
  · rename_i same
    subst same
    rcases Option.map_eq_some_iff.mp found with ⟨node, held, rfl⟩
    rw [show nodes[id.index]? = some node from held]
    rfl
  · rfl

end Arena

namespace Inference

/-- The action finds a value, leaves a tree as it is and adds reports. No name was
repeated. -/
def Repeats {value : Type} (tree : SourceTree) (result : Option Ty) (loops : Nat) (names : Scopes)
    (action : Inference value) (found : value) (last : Scopes) (reports : List Diagnostic) : Prop :=
  ∀ said, Ran action ⟨tree, names, result, loops, [], said⟩ found
    ⟨tree, last, result, loops, [], said ++ reports⟩

section Laws

variable {value image : Type} {tree : SourceTree} {result : Option Ty} {loops : Nat}
  {names middle last : Scopes} {first : Inference value} {next : value → Inference image}
  {found : value} {final : image} {reports more : List Diagnostic}

theorem repeats_pure (found : value) :
    Repeats tree result loops names (pure found) found names [] := by
  intro said
  rw [List.append_nil]
  rfl

theorem Repeats.bind (left : Repeats tree result loops names first found middle reports)
    (right : Repeats tree result loops middle (next found) final last more) :
    Repeats tree result loops names (first >>= next) final last (reports ++ more) := by
  intro said
  rw [← List.append_assoc]
  exact ran_bind.mpr ⟨_, _, left said, right _⟩

/-- The first of two actions reports nothing. -/
theorem Repeats.before (left : Repeats tree result loops names first found middle [])
    (right : Repeats tree result loops middle (next found) final last reports) :
    Repeats tree result loops names (first >>= next) final last reports :=
  left.bind right

/-- The second of two actions reports nothing. -/
theorem Repeats.behind (left : Repeats tree result loops names first found middle reports)
    (right : Repeats tree result loops middle (next found) final last []) :
    Repeats tree result loops names (first >>= next) final last reports := by
  have both := left.bind right
  rw [List.append_nil] at both
  exact both

theorem repeats_kind (node : NodeId) :
    Repeats tree result loops names (kind? node) (tree.arena.kind? node) names [] := by
  intro said
  rw [List.append_nil]
  rfl

theorem repeats_type (node : NodeId) :
    Repeats tree result loops names (type? node) (tree.arena.type? node) names [] := by
  intro said
  rw [List.append_nil]
  rfl

theorem repeats_scopes : Repeats tree result loops names scopes names names [] :=
  repeats_pure _

/-- The state is looked at. -/
theorem repeats_get {next : InferenceState → Inference image}
    (right : ∀ said, Repeats tree result loops names (next ⟨tree, names, result, loops, [], said⟩)
      final last reports) :
    Repeats tree result loops names (get >>= next) final last reports :=
  fun said => ran_bind.mpr ⟨_, _, rfl, right said said⟩

theorem repeats_on_scopes (step : Scopes → Scopes) :
    Repeats tree result loops names (onScopes step) ⟨⟩ (step names) [] := by
  intro said
  rw [List.append_nil]
  rfl

theorem repeats_set_type {node : NodeId} {type : Option Ty} (same : tree.arena.type? node = type) :
    Repeats tree result loops names (setType node type) ⟨⟩ names [] := by
  intro said
  rw [← same, List.append_nil]
  change EStateM.Result.ok _ (InferenceState.mk ⟨tree.arena.setType _ _, _⟩ _ _ _ _ _) = _
  rw [Arena.set_type_same]

theorem repeats_set_kind {node : NodeId} {kind : NodeKind NodeId}
    (found : tree.arena.kind? node = some kind) :
    Repeats tree result loops names (onTree (SourceTree.setKind node kind)) ⟨⟩ names [] := by
  intro said
  rw [List.append_nil]
  change EStateM.Result.ok _ (InferenceState.mk ⟨tree.arena.setKind _ _, _⟩ _ _ _ _ _) = _
  rw [Arena.set_kind_same found]

theorem repeats_mapM_cons {item : value} {items : List value} {visit : value → Inference image}
    {images : List image} (here : Repeats tree result loops names (visit item) final middle reports)
    (after : Repeats tree result loops middle (items.mapM visit) images last more) :
    Repeats tree result loops names ((item :: items).mapM visit) (final :: images) last
      (reports ++ more) := by
  rw [List.mapM_cons]
  exact here.bind (after.behind (repeats_pure _))

theorem repeats_mapM {visit : NodeId → Inference image} {read : NodeId → image}
    {items : List NodeId} {each : List (List Diagnostic)}
    (step : List.Forall₂ (fun item said => Repeats tree result loops names (visit item) (read item)
      names said) items each) :
    Repeats tree result loops names (items.mapM visit) (items.map read) names each.flatten := by
  induction step with
  | nil => exact repeats_pure _
  | cons here _ ih => exact repeats_mapM_cons here ih

theorem repeats_forM {visit : NodeId → Inference PUnit} {items : List NodeId}
    {each : List (List Diagnostic)}
    (step : List.Forall₂ (fun item said => Repeats tree result loops names (visit item) ⟨⟩
      names said) items each) :
    Repeats tree result loops names (items.forM visit) ⟨⟩ names each.flatten := by
  induction step with
  | nil => exact repeats_pure _
  | cons here _ ih => exact here.bind ih

end Laws

section Rules

variable {environment : Environment} {infer : NodeId → Inference (Option Ty)} {tree : SourceTree}
  {result : Option Ty} {loops : Nat} {names : Scopes} {node : NodeId} {own : Option Ty}
  {reports more : List Diagnostic}

/-- The name of a type is read as before. -/
theorem repeats_resolve {name : String} {ranks : List Nat} {type : Ty}
    (found : tree.arena.kind? node = some (.typeRef name ranks))
    (typed : tree.arena.type? node = some type)
    (written : environment.host.written? name ranks = some type) :
    Repeats tree result loops names (resolveType environment node) (tree.arena.type? node) names
      [] := by
  rcases Option.map_eq_some_iff.mp written with ⟨base, resolved, rfl⟩
  apply (repeats_kind node).before
  rw [found]
  simp only [resolved]
  apply (repeats_set_type typed).before
  rw [typed]
  exact repeats_pure _

theorem repeats_report {span : Span} (place : tree.spans.span? node = some span)
    (kind : DiagnosticKind) : Repeats tree result loops names (report environment node kind) ⟨⟩
      names [⟨kind, span, environment.fileName⟩] := by
  intro said
  refine ran_bind.mpr ⟨_, _, rfl, ran_bind.mpr ⟨⟨kind, span, environment.fileName⟩,
    ⟨tree, names, result, loops, [], said⟩, ?_, rfl⟩⟩
  change Ran (SourceTree.ofExcept (tree.spans.report environment.fileName node kind)) _ _ _
  rw [SpanTable.report_of_span place]
  rfl

section Operands

theorem repeats_variable {name : String} {binding : Binding}
    (visible : names.lookup name = some binding) :
    Repeats tree result loops names (variableType environment node name) binding.type names [] := by
  apply repeats_scopes.before
  rw [visible]
  exact repeats_pure _

theorem repeats_member_access {owner : NodeId} {name : String}
    (first : Repeats tree result loops names (infer owner) (tree.arena.type? owner) names reports)
    (rule : memberResult environment.host name (tree.arena.type? owner) = some own) :
    Repeats tree result loops names (memberAccess environment infer node owner name) own names
      reports := by
  apply first.behind
  cases known : tree.arena.type? owner with
  | none =>
      rw [known] at rule
      cases rule
      exact repeats_pure _
  | some type =>
      rw [known] at rule
      rcases Option.map_eq_some_iff.mp rule with ⟨member, resolved, rfl⟩
      simp only [resolved]
      exact repeats_pure _

/-- An index that is known is an `int`. -/
theorem repeats_check_index {index : NodeId} (int : IfKnown (tree.arena.type? index) (· = .int)) :
    Repeats tree result loops names (checkIndex environment node index (tree.arena.type? index)) ⟨⟩
      names [] := by
  cases known : tree.arena.type? index with
  | none => exact repeats_pure _
  | some type =>
      cases int type known
      exact repeats_pure _

theorem repeats_index_access {target index : NodeId} {added : List Diagnostic}
    (first : Repeats tree result loops names (infer target) (tree.arena.type? target) names reports)
    (second : Repeats tree result loops names (infer index) (tree.arena.type? index) names more)
    (int : IfKnown (tree.arena.type? index) (· = .int))
    (rule : elementResult (tree.arena.type? target) = some own)
    (warned : Cautioned environment tree node (elementWarns (tree.arena.type? target)) added) :
    Repeats tree result loops names (indexAccess environment infer node target index) own names
      (reports ++ (more ++ added)) := by
  refine first.bind (second.bind ((repeats_check_index int).before ?_))
  cases known : tree.arena.type? target with
  | none =>
      rw [known] at rule warned
      cases rule
      cases warned
      exact repeats_pure _
  | some type =>
      rw [known] at rule warned
      cases type with
      | array element rank =>
          cases rule
          by_cases one : rank = 1
          · subst one
            cases warned
            exact repeats_pure _
          · rw [elementWarns, show (rank != 1) = true by simpa using one] at warned
            rcases warned with ⟨span, place, rfl⟩
            rw [if_neg one]
            split
            · rename_i same
              cases same
            · rename_i same
              cases same
              exact absurd rfl one
            · exact (repeats_report place _).behind (repeats_pure _)
            · rename_i other same
              cases same
              exact absurd rfl (other element rank)
      | _ => cases rule

theorem repeats_unary {operator : UnaryOperator} {operand : NodeId}
    (first : Repeats tree result loops names (infer operand) (tree.arena.type? operand) names
      reports)
    (rule : unaryResult operator (tree.arena.type? operand) = some own) :
    Repeats tree result loops names (unary environment infer node operator operand) own names
      reports := by
  apply first.behind
  cases known : tree.arena.type? operand with
  | none =>
      rw [known] at rule
      cases rule
      exact repeats_pure _
  | some type =>
      rw [known] at rule
      simp only [unaryResult] at rule
      split at rule
      · rename_i taken
        cases rule
        simp only [taken]
        exact repeats_pure _
      · cases rule

/-- Operands that have a common type are not widened. -/
theorem repeats_common_type {operator : BinaryOperator} {left right : NodeId}
    {leftType rightType common : Option Ty}
    (rule : commonResult operator.category leftType rightType = some common) :
    Repeats tree result loops names
      (commonType environment node operator left right leftType rightType) common names [] := by
  unfold commonType
  rcases common_result_cases rule with ⟨unknown, rfl⟩ | ⟨first, second, known, rfl, fits⟩
  · rw [unknown]
    exact repeats_pure _
  · rw [known]
    simp only
    rcases fits with fit | ⟨fit, rfl⟩
    · rw [fit]
      exact repeats_pure _
    · rw [fit]
      simp only [unify, promote, if_true]
      exact repeats_pure _

theorem repeats_binary {operator : BinaryOperator} {left right : NodeId} {common : Option Ty}
    (first : Repeats tree result loops names (infer left) (tree.arena.type? left) names reports)
    (second : Repeats tree result loops names (infer right) (tree.arena.type? right) names more)
    (rule : commonResult operator.category (tree.arena.type? left) (tree.arena.type? right) =
      some common) :
    Repeats tree result loops names (binary environment infer node operator left right)
      (if operator.category.isPredicate then some .bool else common) names (reports ++ more) :=
  first.bind (second.behind ((repeats_common_type rule).before (repeats_pure _)))

theorem repeats_call {name : String} {arguments : List NodeId}
    (each : Repeats tree result loops names (arguments.mapM infer)
      (arguments.map tree.arena.type?) names reports)
    (rule : callResult (candidates environment name) (arguments.map tree.arena.type?)
      (!reports.isEmpty) = some own) :
    Repeats tree result loops names (call environment infer node name arguments) own names
      reports := by
  intro said
  refine ran_bind.mpr ⟨_, _, rfl, ran_bind.mpr ⟨_, _, each said, ran_bind.mpr ⟨_, _, rfl, ?_⟩⟩⟩
  have reported : decide (said.length < (said ++ reports).length) = !reports.isEmpty := by
    cases reports <;> simp
  simp only [reported]
  rcases call_result_cases rule with ⟨signature, accepts, rfl⟩ | ⟨absent, rfl, counted, excused⟩
  · rw [accepts]
    rfl
  · rw [List.length_map] at counted
    rw [← Bool.or_eq_true] at excused
    simp only [absent, counted, excused]
    rfl

theorem repeats_new_array {element length : NodeId}
    (first : Repeats tree result loops names (resolveType environment element)
      (tree.arena.type? element) names reports)
    (second : Repeats tree result loops names (infer length) (tree.arena.type? length) names more)
    (int : IfKnown (tree.arena.type? length) (· = .int)) :
    Repeats tree result loops names (newArray environment infer node element length)
      ((tree.arena.type? element).map fun found => .array found 1) names (reports ++ more) :=
  first.bind (second.behind ((repeats_check_index int).before (repeats_pure _)))

theorem repeats_cast {target inner : NodeId}
    (found : tree.arena.kind? node = some (.cast target inner (tree.arena.type? inner)))
    (first : Repeats tree result loops names (resolveType environment target)
      (tree.arena.type? target) names reports)
    (second : Repeats tree result loops names (infer inner) (tree.arena.type? inner) names more)
    (casts : IfKnown (tree.arena.type? inner) fun found => IfKnown (tree.arena.type? target)
      fun wanted => found.castsTo wanted = true) :
    Repeats tree result loops names (cast environment infer node target inner)
      (tree.arena.type? target) names (reports ++ more) := by
  have noted : Repeats tree result loops names (setCastSource node (tree.arena.type? inner)) ⟨⟩ names
      [] := by
    apply (repeats_kind node).before
    rw [found]
    exact repeats_set_kind found
  refine first.bind (second.behind (noted.before ?_))
  cases source : tree.arena.type? inner with
  | none => exact repeats_pure _
  | some sourceType =>
      cases wanted : tree.arena.type? target with
      | none => exact repeats_pure _
      | some wantedType =>
          simp only [casts sourceType source wantedType wanted]
          exact repeats_pure _

end Operands

end Rules

section Nodes

variable {limit : Position} {environment : Environment} {origin tree : SourceTree}
  {result : Option Ty} {loops : Nat} {names : Scopes} {root node : NodeId} {nodes : List NodeId}
  {kind : NodeKind NodeId} {reports added : List Diagnostic} {each : List (List Diagnostic)}

/-- Whatever a node may be inferred as, it is found again with its type. A budget above
the rank of a node is enough for the nodes below it. -/
structure Repeated (environment : Environment) (origin tree : SourceTree) (result : Option Ty)
    (loops : Nat) (names : Scopes) (node : NodeId) (reports : List Diagnostic) : Prop where
  type : tree.arena.Admitted .type node → Repeats tree result loops names
    (resolveType environment node) (tree.arena.type? node) names reports
  parameter : tree.arena.Admitted .parameter node → Repeats tree result loops names
    (parameterType environment node) (tree.arena.type? node) names reports
  expression : tree.arena.Admitted .expression node → ∀ budget,
    SourceTree.rank origin tree node < budget → Repeats tree result loops names
      (expressionWithin environment budget node) (tree.arena.type? node) names reports

/-- The slots of a node whose children are found again. -/
structure Children (environment : Environment) (origin tree : SourceTree) (result : Option Ty)
    (loops : Nat) (names : Scopes) (kind : NodeKind NodeId) (budget : Nat) : Prop where
  type : ∀ {child said}, (Category.type, child) ∈ kind.slots →
    Repeated environment origin tree result loops names child said →
    Repeats tree result loops names (resolveType environment child) (tree.arena.type? child) names
      said
  expression : ∀ {child said}, (Category.expression, child) ∈ kind.slots →
    Repeated environment origin tree result loops names child said →
    Repeats tree result loops names (expressionWithin environment budget child)
      (tree.arena.type? child) names said

/-- Every slot holds what may stand there, of a lower rank. -/
theorem children_of_engrafted (engrafted : SourceTree.Engrafted limit origin tree root)
    (above : tree.arena.Reachable root node) (found : tree.arena.kind? node = some kind)
    {budget : Nat} (enough : SourceTree.rank origin tree node ≤ budget) :
    Children environment origin tree result loops names kind budget where
  type slot repeated := repeated.type (engrafted.sorted above found slot nofun)
  expression {child said} slot repeated := by
    apply repeated.expression (engrafted.sorted above found slot nofun)
    apply Nat.lt_of_lt_of_le (engrafted.rank_falls above _) enough
    exact Arena.child_of_kind found (NodeKind.slot_is_child slot)

theorem Children.all {budget : Nat} {items : List NodeId} {value : Type} {read : NodeId → value}
    {visit : NodeId → Inference value}
    (children : Children environment origin tree result loops names kind budget)
    (slots : ∀ item ∈ items, (Category.expression, item) ∈ kind.slots)
    (step : ∀ {item said}, Repeats tree result loops names (expressionWithin environment budget item)
      (tree.arena.type? item) names said → Repeats tree result loops names (visit item) (read item)
        names said)
    (below : List.Forall₂ (Repeated environment origin tree result loops names) items each) :
    List.Forall₂ (fun item said => Repeats tree result loops names (visit item) (read item) names
      said) items each :=
  ((List.forall₂_and_left _ _).mpr ⟨slots, below⟩).imp fun _ _ held =>
    step (children.expression held.1 held.2)

/-- One case for each kind of expression. -/
theorem Children.repeats {budget : Nat}
    (children : Children environment origin tree result loops names kind budget)
    (found : tree.arena.kind? node = some kind) (expression : kind.isExpression = true)
    (below : List.Forall₂ (Repeated environment origin tree result loops names) kind.children each)
    (rule : kind.Accepts environment names tree.arena.type? (tree.arena.type? node)
      (!each.flatten.isEmpty))
    (warned : Cautioned environment tree node (kind.warns tree.arena.type?) added) :
    Repeats tree result loops names
      (anyExpression environment (expressionWithin environment budget) node)
      (tree.arena.type? node) names (each.flatten ++ added) := by
  apply (repeats_kind node).before
  rw [found]
  cases kind with
  | literal value =>
      cases below
      cases warned
      rw [show tree.arena.type? node = some value.type from rule]
      exact repeats_pure _
  | member name =>
      cases below
      cases warned
      rcases rule with ⟨binding, visible, same⟩
      rw [same]
      exact repeats_variable visible
  | memberAccess owner name =>
      rcases below with _ | ⟨first, ⟨⟩⟩
      cases warned
      rw [List.flatten_cons, List.flatten_nil, List.append_nil, List.append_nil]
      exact repeats_member_access (children.expression (by simp [NodeKind.slots]) first) rule
  | indexAccess target index =>
      rcases below with _ | ⟨first, _ | ⟨second, ⟨⟩⟩⟩
      simp only [List.flatten_cons, List.flatten_nil, List.append_nil, List.append_assoc]
      exact repeats_index_access (children.expression (by simp [NodeKind.slots]) first)
        (children.expression (by simp [NodeKind.slots]) second) rule.1 rule.2 warned
  | binary operator left right =>
      rcases below with _ | ⟨first, _ | ⟨second, ⟨⟩⟩⟩
      cases warned
      rcases rule with ⟨common, result, same⟩
      simp only [List.flatten_cons, List.flatten_nil, List.append_nil, same]
      exact repeats_binary (children.expression (by simp [NodeKind.slots]) first)
        (children.expression (by simp [NodeKind.slots]) second) result
  | unary operator operand =>
      rcases below with _ | ⟨first, ⟨⟩⟩
      cases warned
      simp only [List.flatten_cons, List.flatten_nil, List.append_nil]
      exact repeats_unary (children.expression (by simp [NodeKind.slots]) first) rule
  | call name arguments =>
      cases warned
      rw [List.append_nil]
      exact repeats_call (repeats_mapM (children.all (by simp [NodeKind.slots]) id below)) rule
  | construct written arguments =>
      rcases below with _ | ⟨first, rest⟩
      cases warned
      rw [List.append_nil, List.flatten_cons]
      have typed : tree.arena.type? node = tree.arena.type? written := rule
      rw [typed]
      have visited : Repeats tree result loops names (arguments.forM fun argument => do
          let _ ← expressionWithin environment budget argument) ⟨⟩ names _ :=
        repeats_forM (children.all (by simp [NodeKind.slots])
          (fun step => step.behind (repeats_pure _)) rest)
      exact (children.type (by simp [NodeKind.slots]) first).bind (visited.behind (repeats_pure _))
  | newArray element length =>
      rcases below with _ | ⟨first, _ | ⟨second, ⟨⟩⟩⟩
      cases warned
      simp only [List.flatten_cons, List.flatten_nil, List.append_nil, rule.2]
      exact repeats_new_array (children.type (by simp [NodeKind.slots]) first)
        (children.expression (by simp [NodeKind.slots]) second) rule.1
  | cast target inner source =>
      rcases below with _ | ⟨first, _ | ⟨second, ⟨⟩⟩⟩
      cases warned
      rcases rule with ⟨rfl, typed, casts⟩
      simp only [List.flatten_cons, List.flatten_nil, List.append_nil, typed]
      exact repeats_cast found (children.type (by simp [NodeKind.slots]) first)
        (children.expression (by simp [NodeKind.slots]) second) casts
  | _ => cases expression

/-- A node is found again if its children are. -/
theorem repeated_node (engrafted : SourceTree.Engrafted limit origin tree root)
    (above : tree.arena.Reachable root node) (found : tree.arena.kind? node = some kind)
    (below : List.Forall₂ (Repeated environment origin tree result loops names) kind.children each)
    (rule : kind.Accepts environment names tree.arena.type? (tree.arena.type? node)
      (!each.flatten.isEmpty))
    (warned : Cautioned environment tree node (kind.warns tree.arena.type?) added) :
    Repeated environment origin tree result loops names node (each.flatten ++ added) where
  type := by
    rintro ⟨other, held, admits⟩
    cases found.symm.trans held
    cases kind with
    | typeRef name ranks =>
        cases below
        cases warned
        rcases rule with ⟨type, typed, written⟩
        rw [typed] at written
        exact repeats_resolve found typed written
    | _ => cases admits
  parameter := by
    rintro ⟨other, held, admits⟩
    cases found.symm.trans held
    cases kind with
    | parameter written name =>
        rcases below with _ | ⟨first, ⟨⟩⟩
        cases warned
        have children : Children environment origin tree result loops names
            (.parameter written name) _ := children_of_engrafted engrafted above found (Nat.le_refl _)
        have typed : tree.arena.type? node = tree.arena.type? written := rule
        rw [List.flatten_cons, List.flatten_nil, List.append_nil, List.append_nil, typed]
        apply (repeats_kind node).before
        rw [found]
        exact (children.type (by simp [NodeKind.slots]) first).behind
          ((repeats_set_type typed).before (repeats_pure _))
    | _ => cases admits
  expression := by
    rintro ⟨other, held, admits⟩ budget enough
    cases found.symm.trans held
    cases budget with
    | zero => exact absurd enough (Nat.not_lt_zero _)
    | succ budget =>
        have children : Children environment origin tree result loops names kind budget :=
          children_of_engrafted engrafted above found (Nat.le_of_lt_succ enough)
        have visited := children.repeats found admits below rule warned
        exact visited.behind ((repeats_set_type rfl).before (repeats_pure _))

/-- Accepted nodes are found again, one after the other. -/
theorem Accepted.repeated (accepted : Accepted environment names tree nodes reports)
    (result : Option Ty) (loops : Nat) (engrafted : SourceTree.Engrafted limit origin tree root)
    (above : ∀ node ∈ nodes, tree.arena.Reachable root node) :
    ∃ each, reports = each.flatten ∧
      List.Forall₂ (Repeated environment origin tree result loops names) nodes each := by
  induction accepted with
  | nil => exact ⟨[], rfl, .nil⟩
  | @cons id kind rest inner added later found below rule warned after ihBelow ihAfter =>
      have own := above id List.mem_cons_self
      rcases ihBelow (fun child member => own.tail (Arena.child_of_kind found member))
        with ⟨each, rfl, children⟩
      rcases ihAfter fun node member => above node (List.mem_cons_of_mem _ member) with
        ⟨others, rfl, repeated⟩
      exact ⟨(each.flatten ++ added) :: others, by rw [List.flatten_cons],
        .cons (repeated_node engrafted own found children rule warned) repeated⟩

theorem Accepted.repeated_one (accepted : Accepted environment names tree [node] reports)
    (result : Option Ty) (loops : Nat) (engrafted : SourceTree.Engrafted limit origin tree root)
    (above : tree.arena.Reachable root node) :
    Repeated environment origin tree result loops names node reports := by
  rcases accepted.repeated result loops engrafted (fun other member => by
    rw [List.mem_singleton.mp member]
    exact above) with ⟨each, rfl, repeated⟩
  rcases repeated with _ | ⟨own, ⟨⟩⟩
  rw [List.flatten_cons, List.flatten_nil, List.append_nil]
  exact own

/-- The budget that every expression gets is enough. -/
theorem repeats_expression (repeated : Repeated environment origin tree result loops names node reports)
    (engrafted : SourceTree.Engrafted limit origin tree root)
    (above : tree.arena.Reachable root node) (admitted : tree.arena.Admitted .expression node) :
    Repeats tree result loops names (expression environment node) (tree.arena.type? node) names
      reports := by
  intro said
  refine ran_bind.mpr ⟨_, _, rfl, repeated.expression admitted _ ?_ said⟩
  have bound := engrafted.rank_bound above
  change SourceTree.rank origin tree node < 2 * tree.arena.size + 2
  omega

end Nodes

end Inference

end ModuleLang
