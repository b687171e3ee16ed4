import ModuleLang.Proofs.Typing.Naming

/-!
What expressions see of the scopes. The rules for expressions look names up and take
their types, and nothing else: which nodes declare the names, and what was declared in
closed frames, makes no difference to them. So an expression that is inferred under
some scopes is inferred in the same way under others that give the same types.
-/

namespace ModuleLang

/-- The same names are visible, and they have the same types. -/
def Scopes.Alike (names others : Scopes) : Prop :=
  ∀ name, (others.lookup name).map Binding.type = (names.lookup name).map Binding.type

namespace Inference

/-- A state with other scopes. -/
def under (state : InferenceState) (scopes : Scopes) : InferenceState := { state with scopes }

/-- The action leaves the scopes as they are, and does the same under the others. -/
def Transfers {value : Type} (names others : Scopes) (action : Inference value) : Prop :=
  ∀ start result final, start.scopes = names → Ran action start result final →
    final.scopes = names ∧ Ran action (under start others) result (under final others)

section Actions

variable {names others : Scopes} {value image : Type}

theorem transfers_pure (result : value) : Transfers names others (pure result) := by
  intro start _ _ same ran
  cases ran
  exact ⟨same, rfl⟩

theorem transfers_throw (failure : InternalError) :
    Transfers names others (throw failure : Inference value) := by
  intro start _ _ _ ran
  cases ran

theorem transfers_bind {action : Inference value} {next : value → Inference image}
    (first : Transfers names others action) (rest : ∀ result, Transfers names others (next result)) :
    Transfers names others (action >>= next) := by
  intro start result final same ran
  rcases ran_bind.mp ran with ⟨found, middle, early, late⟩
  rcases first _ _ _ same early with ⟨kept, early⟩
  rcases rest found _ _ _ kept late with ⟨kept, late⟩
  exact ⟨kept, ran_bind.mpr ⟨found, _, early, late⟩⟩

/-- What is read off a state but for its scopes is the same. -/
theorem transfers_read {next : InferenceState → Inference image}
    (same : ∀ state, next (under state others) = next state)
    (rest : ∀ state, Transfers names others (next state)) :
    Transfers names others (get >>= next) := by
  intro start result final visible ran
  rcases ran_bind.mp ran with ⟨_, _, got, ran⟩
  cases got
  rcases rest _ _ _ _ visible ran with ⟨kept, ran⟩
  refine ⟨kept, ran_bind.mpr ⟨_, _, rfl, ?_⟩⟩
  rw [same]
  exact ran

theorem transfers_mapM {visit : value → Inference image}
    (each : ∀ item, Transfers names others (visit item)) (items : List value) :
    Transfers names others (items.mapM visit) := by
  induction items with
  | nil =>
      rw [List.mapM_nil]
      exact transfers_pure []
  | cons head tail ih =>
      rw [List.mapM_cons]
      refine transfers_bind (each head) fun _ => transfers_bind ih fun _ => ?_
      exact transfers_pure _

theorem transfers_forM {visit : value → Inference PUnit}
    (each : ∀ item, Transfers names others (visit item)) (items : List value) :
    Transfers names others (items.forM visit) := by
  induction items with
  | nil => exact transfers_pure _
  | cons head tail ih => exact transfers_bind (each head) fun _ => ih

theorem transfers_on_tree (action : SourceTree.Action value) :
    Transfers names others (onTree action) := by
  intro start result final same ran
  rcases ran_on_tree ran with ⟨tree, inside, rfl⟩
  refine ⟨same, ?_⟩
  change onTree action (under start others) = _
  unfold onTree
  rw [show action.run (under start others).tree = .ok result tree from inside]
  rfl

theorem transfers_kind (node : NodeId) : Transfers names others (kind? node) :=
  transfers_read (fun _ => rfl) fun _ => transfers_pure _

theorem transfers_type (node : NodeId) : Transfers names others (type? node) :=
  transfers_read (fun _ => rfl) fun _ => transfers_pure _

theorem transfers_set_type (node : NodeId) (type : Option Ty) :
    Transfers names others (setType node type) :=
  transfers_on_tree _

variable (environment : Environment)

theorem transfers_report (node : NodeId) (kind : DiagnosticKind) :
    Transfers names others (report environment node kind) := by
  refine transfers_read (fun _ => rfl) fun state => transfers_bind ?_ fun _ => ?_
  · cases state.tree.spans.report environment.fileName node kind with
    | ok found => exact transfers_pure found
    | error failure => exact transfers_throw failure
  · intro start result final same ran
    cases ran
    exact ⟨same, rfl⟩

theorem transfers_insert_cast (parent child : NodeId) (target : Ty) :
    Transfers names others (insertCast parent child target) := by
  refine transfers_bind (transfers_type _) fun _ => transfers_bind ?_ fun _ =>
    transfers_bind ?_ fun _ => transfers_bind (transfers_on_tree _) fun _ => transfers_set_type _ _
  · refine transfers_bind (transfers_on_tree _) fun _ => ?_
    refine transfers_bind (transfers_set_type _ _) fun _ => ?_
    exact transfers_bind (transfers_on_tree _) fun _ => transfers_pure _
  · refine transfers_bind (transfers_on_tree _) fun _ => ?_
    exact transfers_bind (transfers_on_tree _) fun _ => transfers_pure _

theorem transfers_resolve_type (node : NodeId) :
    Transfers names others (resolveType environment node) := by
  refine transfers_bind (transfers_kind _) fun _ => ?_
  split
  · split
    · exact transfers_bind (transfers_report environment _ _) fun _ => transfers_pure _
    · exact transfers_bind (transfers_set_type _ _) fun _ => transfers_pure _
  · exact transfers_throw _

/-- Reports whose value is no longer of interest. -/
theorem transfers_reported (node : NodeId) (kind : DiagnosticKind) (result : value) :
    Transfers names others (do
      report environment node kind
      return result) :=
  transfers_bind (transfers_report environment node kind) fun _ => transfers_pure _

theorem transfers_variable (alike : names.Alike others) (node : NodeId) (name : String) :
    Transfers names others (variableType environment node name) := by
  intro start result final same ran
  rcases ran_bind.mp ran with ⟨_, _, got, ran⟩
  cases got
  have types := alike name
  rw [← same] at types
  split at ran
  · rename_i binding visible
    cases ran
    rw [visible, Option.map_some] at types
    rcases Option.map_eq_some_iff.mp types with ⟨other, found, typed⟩
    refine ⟨same, ran_bind.mpr ⟨_, _, rfl, ?_⟩⟩
    rw [show (under start others).scopes.lookup name = some other from found]
    exact congrArg (EStateM.Result.ok · _) typed
  · rename_i unseen
    rw [unseen, Option.map_none, Option.map_eq_none_iff] at types
    rcases transfers_reported environment node (.cannotFindMember name) none _ _ _ same ran with
      ⟨kept, reported⟩
    refine ⟨kept, ran_bind.mpr ⟨_, _, rfl, ?_⟩⟩
    rw [show (under start others).scopes.lookup name = none from types]
    exact reported

theorem transfers_check_index (parent index : NodeId) (type : Option Ty) :
    Transfers names others (checkIndex environment parent index type) := by
  unfold checkIndex
  split
  · exact transfers_pure _
  · split
    · exact transfers_pure _
    · split
      · exact transfers_insert_cast _ _ _
      · exact transfers_report environment _ _

theorem transfers_common_type (node : NodeId) (operator : BinaryOperator) (left right : NodeId)
    (leftType rightType : Option Ty) :
    Transfers names others (commonType environment node operator left right leftType rightType) := by
  unfold commonType
  split
  · exact transfers_pure _
  · split
    · exact transfers_pure _
    · unfold unify
      split
      · exact transfers_pure _
      · exact transfers_bind (transfers_insert_cast _ _ _) fun _ => transfers_pure _
      · exact transfers_bind (transfers_insert_cast _ _ _) fun _ => transfers_pure _
      · exact transfers_reported environment _ _ _
    · exact transfers_reported environment _ _ _

variable {infer : NodeId → Inference (Option Ty)}
  (inner : ∀ node, Transfers names others (infer node))

include inner

theorem transfers_index_access (node target index : NodeId) :
    Transfers names others (indexAccess environment infer node target index) := by
  refine transfers_bind (inner target) fun _ => transfers_bind (inner index) fun _ => ?_
  refine transfers_bind (transfers_check_index environment _ _ _) fun _ => ?_
  split
  · exact transfers_pure _
  · exact transfers_pure _
  · exact transfers_reported environment _ _ _
  · exact transfers_reported environment _ _ _

theorem transfers_call (node : NodeId) (name : String) (arguments : List NodeId) :
    Transfers names others (call environment infer node name arguments) := by
  refine transfers_read (fun _ => rfl) fun before => ?_
  refine transfers_bind (transfers_mapM inner arguments) fun types => ?_
  refine transfers_read (fun _ => rfl) fun after => ?_
  dsimp only
  split
  · exact transfers_pure _
  · split
    · exact transfers_reported environment _ _ _
    · exact transfers_pure _

theorem transfers_cast (node target operand : NodeId) :
    Transfers names others (cast environment infer node target operand) := by
  refine transfers_bind (transfers_resolve_type environment _) fun _ => ?_
  refine transfers_bind (inner operand) fun _ => transfers_bind ?_ fun _ => ?_
  · refine transfers_bind (transfers_kind _) fun _ => ?_
    split
    · exact transfers_on_tree _
    · exact transfers_pure _
  · split
    · split
      · split
        · exact transfers_reported environment _ _ _
        · exact transfers_pure _
      · exact transfers_pure _
    · exact transfers_pure _

theorem transfers_any_expression (alike : names.Alike others) (node : NodeId) :
    Transfers names others (anyExpression environment infer node) := by
  refine transfers_bind (transfers_kind _) fun _ => ?_
  split
  · exact transfers_pure _
  · exact transfers_variable environment alike _ _
  · refine transfers_bind (inner _) fun _ => ?_
    split
    · split
      · exact transfers_pure _
      · exact transfers_reported environment _ _ _
    · exact transfers_pure _
  · exact transfers_index_access environment inner _ _ _
  · refine transfers_bind (inner _) fun _ => transfers_bind (inner _) fun _ => ?_
    exact transfers_bind (transfers_common_type environment _ _ _ _ _ _) fun _ => transfers_pure _
  · refine transfers_bind (inner _) fun _ => ?_
    split
    · exact transfers_pure _
    · dsimp only
      split
      · exact transfers_reported environment _ _ _
      · exact transfers_pure _
  · exact transfers_call environment inner _ _ _
  · refine transfers_bind (transfers_resolve_type environment _) fun _ => ?_
    refine transfers_bind (transfers_forM (fun argument => ?_) _) fun _ => transfers_pure _
    exact transfers_bind (inner argument) fun _ => transfers_pure _
  · refine transfers_bind (transfers_resolve_type environment _) fun _ => ?_
    refine transfers_bind (inner _) fun _ => ?_
    exact transfers_bind (transfers_check_index environment _ _ _) fun _ => transfers_pure _
  · exact transfers_cast environment inner _ _ _
  · exact transfers_throw _

end Actions

variable {names others : Scopes}

theorem transfers_expression_within (environment : Environment) (alike : names.Alike others)
    (budget : Nat) (node : NodeId) :
    Transfers names others (expressionWithin environment budget node) := by
  induction budget generalizing node with
  | zero => exact transfers_throw _
  | succ budget ih =>
      refine transfers_bind (transfers_any_expression environment ih alike node) fun _ => ?_
      exact transfers_bind (transfers_set_type _ _) fun _ => transfers_pure _

theorem transfers_expression (environment : Environment) (alike : names.Alike others)
    (node : NodeId) : Transfers names others (expression environment node) :=
  transfers_read (fun _ => rfl) fun _ => transfers_expression_within environment alike _ node

end Inference

end ModuleLang
