import ModuleLang.Proofs.Typing.Walk

/-!
What the rules for expressions leave alone. They change the tree and report, and
nothing else; no report of theirs is about a jump or a name that is defined again. A
relation between states that tolerates both therefore holds around every rule. The
rules for assignments and definitions also declare names.
-/

namespace ModuleLang

/-- Whether a report is about `break` or `continue` outside a loop. -/
def DiagnosticKind.isJump : DiagnosticKind → Bool
  | jumpOutsideLoop _ => true
  | _ => false

/-- Whether a report is about a name that is defined again. -/
def DiagnosticKind.isRepetition : DiagnosticKind → Bool
  | duplicateVariable _ => true
  | _ => false

/-- Whether a report is about where a statement stands, which no rule for expressions
asks. -/
def DiagnosticKind.isPlacement (kind : DiagnosticKind) : Bool := kind.isJump || kind.isRepetition

namespace Inference

/-- The action relates every state to the one that it ends with. -/
def Keeps {value : Type} (relation : InferenceState → InferenceState → Prop)
    (action : Inference value) : Prop :=
  ∀ start result final, Ran action start result final → relation start final

/-- A relation that holds along a chain of states. -/
structure Chained (relation : InferenceState → InferenceState → Prop) : Prop where
  refl : ∀ state, relation state state
  trans : ∀ {first second third}, relation first second → relation second third →
    relation first third

/-- A relation that tolerates changes of the tree and reports. -/
structure Frame (relation : InferenceState → InferenceState → Prop) : Prop extends
    Chained relation where
  tree : ∀ state tree, relation state { state with tree }
  report : ∀ state (found : Diagnostic), found.kind.isPlacement = false →
    relation state { state with diagnostics := state.diagnostics ++ [found] }

/-- A report is added behind the others, at the span of its node. -/
theorem ran_report {environment : Environment} {node : NodeId} {kind : DiagnosticKind}
    {start final : InferenceState} {result : Unit}
    (ran : Ran (report environment node kind) start result final) :
    ∃ span, start.span? node = some span ∧ final = { start with
      diagnostics := start.diagnostics ++ [⟨kind, span, environment.fileName⟩] } := by
  rcases ran_bind.mp ran with ⟨_, _, got, reporting⟩
  cases got
  rcases ran_bind.mp reporting with ⟨reported, _, found, added⟩
  cases known : start.tree.spans.span? node with
  | some span =>
      rw [SpanTable.report_of_span known] at found
      cases found
      cases added
      exact ⟨span, known, rfl⟩
  | none =>
      unfold SpanTable.report SpanTable.span at found
      rw [known] at found
      cases found

theorem report_adds {environment : Environment} {node : NodeId} {kind : DiagnosticKind}
    {start final : InferenceState} {result : Unit}
    (ran : Ran (report environment node kind) start result final) :
    ∃ found : Diagnostic, found.kind = kind ∧
      final = { start with diagnostics := start.diagnostics ++ [found] } := by
  rcases ran_report ran with ⟨span, -, rfl⟩
  exact ⟨_, rfl, rfl⟩

namespace Chained

variable {relation : InferenceState → InferenceState → Prop} {value image : Type}
  (frame : Chained relation)

include frame

theorem keeps_pure (result : value) : Keeps relation (pure result) := by
  rintro start _ _ ran
  cases ran
  exact frame.refl start

theorem keeps_bind {action : Inference value} {next : value → Inference image}
    (first : Keeps relation action) (rest : ∀ result, Keeps relation (next result)) :
    Keeps relation (action >>= next) := by
  intro start result final ran
  unfold Ran at ran
  rw [EStateM.run_bind] at ran
  cases middle : action.run start with
  | ok found state =>
      rw [middle] at ran
      exact frame.trans (first _ _ _ middle) (rest found _ _ _ ran)
  | error _ _ =>
      rw [middle] at ran
      cases ran

theorem keeps_get : Keeps relation (get : Inference InferenceState) := by
  rintro start _ _ ran
  cases ran
  exact frame.refl start

omit frame in
theorem keeps_throw (failure : InternalError) :
    Keeps relation (throw failure : Inference value) := by
  rintro start _ _ ran
  cases ran

theorem keeps_map {action : Inference value} (change : value → image)
    (only : Keeps relation action) : Keeps relation (change <$> action) := by
  rw [map_eq_pure_bind]
  exact frame.keeps_bind only fun _ => frame.keeps_pure _

theorem keeps_mapM {visit : value → Inference image} (each : ∀ item, Keeps relation (visit item))
    (items : List value) : Keeps relation (items.mapM visit) := by
  induction items with
  | nil =>
      rw [List.mapM_nil]
      exact frame.keeps_pure []
  | cons head tail ih =>
      rw [List.mapM_cons]
      refine frame.keeps_bind (each head) fun _ => frame.keeps_bind ih fun _ => ?_
      exact frame.keeps_pure _

theorem keeps_forM {visit : value → Inference PUnit} (each : ∀ item, Keeps relation (visit item))
    (items : List value) : Keeps relation (items.forM visit) := by
  induction items with
  | nil => exact frame.keeps_pure _
  | cons head tail ih => exact frame.keeps_bind (each head) fun _ => ih

end Chained

namespace Frame

variable {relation : InferenceState → InferenceState → Prop} {value image : Type}

section Rules

variable (frame : Frame relation) (environment : Environment)

include frame

theorem keeps_on_tree (action : SourceTree.Action value) : Keeps relation (onTree action) := by
  intro start result final ran
  unfold Ran EStateM.run onTree at ran
  split at ran
  · cases ran
    exact frame.tree start _
  · cases ran

theorem keeps_kind (node : NodeId) : Keeps relation (kind? node) :=
  frame.keeps_bind frame.keeps_get fun _ => frame.keeps_pure _

theorem keeps_type (node : NodeId) : Keeps relation (type? node) :=
  frame.keeps_bind frame.keeps_get fun _ => frame.keeps_pure _

theorem keeps_scopes : Keeps relation scopes :=
  frame.keeps_bind frame.keeps_get fun _ => frame.keeps_pure _

theorem keeps_set_type (node : NodeId) (type : Option Ty) : Keeps relation (setType node type) :=
  frame.keeps_on_tree _

theorem keeps_add (kind : NodeKind NodeId) (source : NodeId) : Keeps relation (add kind source) := by
  refine frame.keeps_bind (frame.keeps_on_tree _) fun _ => ?_
  exact frame.keeps_bind (frame.keeps_on_tree _) fun _ => frame.keeps_pure _

theorem keeps_add_type_ref (type : Ty) (source : NodeId) :
    Keeps relation (addTypeRef type source) := by
  refine frame.keeps_bind (frame.keeps_on_tree _) fun _ => ?_
  refine frame.keeps_bind (frame.keeps_set_type _ _) fun _ => ?_
  exact frame.keeps_bind (frame.keeps_on_tree _) fun _ => frame.keeps_pure _

theorem keeps_insert_cast (parent child : NodeId) (target : Ty) :
    Keeps relation (insertCast parent child target) := by
  refine frame.keeps_bind (frame.keeps_type _) fun _ => ?_
  refine frame.keeps_bind (frame.keeps_add_type_ref _ _) fun _ => ?_
  refine frame.keeps_bind (frame.keeps_add _ _) fun _ => ?_
  exact frame.keeps_bind (frame.keeps_on_tree _) fun _ => frame.keeps_set_type _ _

theorem keeps_report (node : NodeId) {kind : DiagnosticKind} (other : kind.isPlacement = false) :
    Keeps relation (Inference.report environment node kind) := by
  intro start result final ran
  obtain ⟨found, same, rfl⟩ := report_adds ran
  exact frame.report start found (same ▸ other)

theorem keeps_resolve_type (node : NodeId) : Keeps relation (resolveType environment node) := by
  refine frame.keeps_bind (frame.keeps_kind _) fun kind => ?_
  split
  · split
    · refine frame.keeps_bind (frame.keeps_report environment _ rfl) fun _ => ?_
      exact frame.keeps_pure _
    · refine frame.keeps_bind (frame.keeps_set_type _ _) fun _ => ?_
      exact frame.keeps_pure _
  · exact Chained.keeps_throw _

section Expressions

variable {infer : NodeId → Inference (Option Ty)} (inner : ∀ node, Keeps relation (infer node))

theorem keeps_variable_type (node : NodeId) (name : String) :
    Keeps relation (variableType environment node name) := by
  refine frame.keeps_bind frame.keeps_scopes fun _ => ?_
  split
  · exact frame.keeps_pure _
  · exact frame.keeps_bind (frame.keeps_report environment _ rfl) fun _ => frame.keeps_pure _

theorem keeps_check_index (parent index : NodeId) (type : Option Ty) :
    Keeps relation (checkIndex environment parent index type) := by
  unfold checkIndex
  split
  · exact frame.keeps_pure _
  · split
    · exact frame.keeps_pure _
    · split
      · exact frame.keeps_insert_cast _ _ _
      · exact frame.keeps_report environment _ rfl

theorem keeps_unify (node : NodeId) (operator : BinaryOperator) (left right : NodeId)
    (leftType rightType : Ty) :
    Keeps relation (unify environment node operator left right leftType rightType) := by
  unfold unify
  split
  · exact frame.keeps_pure _
  · exact frame.keeps_bind (frame.keeps_insert_cast _ _ _) fun _ => frame.keeps_pure _
  · exact frame.keeps_bind (frame.keeps_insert_cast _ _ _) fun _ => frame.keeps_pure _
  · exact frame.keeps_bind (frame.keeps_report environment _ rfl) fun _ => frame.keeps_pure _

theorem keeps_common_type (node : NodeId) (operator : BinaryOperator) (left right : NodeId)
    (leftType rightType : Option Ty) :
    Keeps relation (commonType environment node operator left right leftType rightType) := by
  unfold commonType
  split
  · exact frame.keeps_pure _
  · split
    · exact frame.keeps_pure _
    · exact frame.keeps_unify environment _ _ _ _ _ _
    · exact frame.keeps_bind (frame.keeps_report environment _ rfl) fun _ => frame.keeps_pure _

theorem keeps_set_cast_source (node : NodeId) (source : Option Ty) :
    Keeps relation (setCastSource node source) := by
  refine frame.keeps_bind (frame.keeps_kind _) fun _ => ?_
  split
  · exact frame.keeps_on_tree _
  · exact frame.keeps_pure _

include inner

theorem keeps_member_access (node owner : NodeId) (name : String) :
    Keeps relation (memberAccess environment infer node owner name) := by
  refine frame.keeps_bind (inner owner) fun _ => ?_
  split
  · split
    · exact frame.keeps_pure _
    · exact frame.keeps_bind (frame.keeps_report environment _ rfl) fun _ => frame.keeps_pure _
  · exact frame.keeps_pure _

theorem keeps_index_access (node target index : NodeId) :
    Keeps relation (indexAccess environment infer node target index) := by
  refine frame.keeps_bind (inner target) fun _ => frame.keeps_bind (inner index) fun _ => ?_
  refine frame.keeps_bind (frame.keeps_check_index environment _ _ _) fun _ => ?_
  split
  · exact frame.keeps_pure _
  · exact frame.keeps_pure _
  · exact frame.keeps_bind (frame.keeps_report environment _ rfl) fun _ => frame.keeps_pure _
  · exact frame.keeps_bind (frame.keeps_report environment _ rfl) fun _ => frame.keeps_pure _

theorem keeps_binary (node : NodeId) (operator : BinaryOperator) (left right : NodeId) :
    Keeps relation (binary environment infer node operator left right) := by
  refine frame.keeps_bind (inner left) fun _ => frame.keeps_bind (inner right) fun _ => ?_
  exact frame.keeps_bind (frame.keeps_common_type environment _ _ _ _ _ _) fun _ =>
    frame.keeps_pure _

theorem keeps_unary (node : NodeId) (operator : UnaryOperator) (operand : NodeId) :
    Keeps relation (unary environment infer node operator operand) := by
  refine frame.keeps_bind (inner operand) fun _ => ?_
  split
  · exact frame.keeps_pure _
  · dsimp only
    split
    · exact frame.keeps_bind (frame.keeps_report environment _ rfl) fun _ => frame.keeps_pure _
    · exact frame.keeps_pure _

theorem keeps_call (node : NodeId) (name : String) (arguments : List NodeId) :
    Keeps relation (call environment infer node name arguments) := by
  refine frame.keeps_bind frame.keeps_get fun _ => ?_
  refine frame.keeps_bind (frame.keeps_mapM inner arguments) fun _ => ?_
  refine frame.keeps_bind frame.keeps_get fun _ => ?_
  dsimp only
  split
  · exact frame.keeps_pure _
  · split
    · exact frame.keeps_bind (frame.keeps_report environment _ rfl) fun _ => frame.keeps_pure _
    · exact frame.keeps_pure _

theorem keeps_new_array (node element length : NodeId) :
    Keeps relation (newArray environment infer node element length) := by
  refine frame.keeps_bind (frame.keeps_resolve_type environment _) fun _ => ?_
  refine frame.keeps_bind (inner length) fun _ => ?_
  exact frame.keeps_bind (frame.keeps_check_index environment _ _ _) fun _ => frame.keeps_pure _

theorem keeps_cast (node target operand : NodeId) :
    Keeps relation (cast environment infer node target operand) := by
  refine frame.keeps_bind (frame.keeps_resolve_type environment _) fun _ => ?_
  refine frame.keeps_bind (inner operand) fun _ => ?_
  refine frame.keeps_bind (frame.keeps_set_cast_source _ _) fun _ => ?_
  split
  · split
    · split
      · exact frame.keeps_bind (frame.keeps_report environment _ rfl) fun _ => frame.keeps_pure _
      · exact frame.keeps_pure _
    · exact frame.keeps_pure _
  · exact frame.keeps_pure _

theorem keeps_any_expression (node : NodeId) :
    Keeps relation (anyExpression environment infer node) := by
  refine frame.keeps_bind (frame.keeps_kind _) fun _ => ?_
  split
  · exact frame.keeps_pure _
  · exact frame.keeps_variable_type environment _ _
  · exact frame.keeps_member_access environment inner _ _ _
  · exact frame.keeps_index_access environment inner _ _ _
  · exact frame.keeps_binary environment inner _ _ _ _
  · exact frame.keeps_unary environment inner _ _ _
  · exact frame.keeps_call environment inner _ _ _
  · refine frame.keeps_bind (frame.keeps_resolve_type environment _) fun _ => ?_
    refine frame.keeps_bind (frame.keeps_forM (fun argument => ?_) _) fun _ => frame.keeps_pure _
    exact frame.keeps_bind (inner argument) fun _ => frame.keeps_pure _
  · exact frame.keeps_new_array environment inner _ _ _
  · exact frame.keeps_cast environment inner _ _ _
  · exact Chained.keeps_throw _

end Expressions

theorem keeps_expression_within (budget : Nat) (node : NodeId) :
    Keeps relation (expressionWithin environment budget node) := by
  induction budget generalizing node with
  | zero => exact Chained.keeps_throw _
  | succ budget ih =>
      refine frame.keeps_bind (frame.keeps_any_expression environment ih node) fun _ => ?_
      exact frame.keeps_bind (frame.keeps_set_type _ _) fun _ => frame.keeps_pure _

theorem keeps_expression (node : NodeId) : Keeps relation (expression environment node) :=
  frame.keeps_bind frame.keeps_get fun _ => frame.keeps_expression_within environment _ _

theorem keeps_predicate (node : NodeId) : Keeps relation (predicate environment node) := by
  refine frame.keeps_bind (frame.keeps_expression environment _) fun _ => ?_
  split
  · exact frame.keeps_pure _
  · split
    · exact frame.keeps_report environment _ rfl
    · exact frame.keeps_pure _

section Statements

theorem keeps_return_value (node value : NodeId) (found expected : Ty) :
    Keeps relation (returnValue environment node value found expected) := by
  unfold returnValue
  split
  · exact frame.keeps_pure _
  · exact frame.keeps_insert_cast _ _ _
  · exact frame.keeps_report environment _ rfl

theorem keeps_return (node : NodeId) (value : Option NodeId) :
    Keeps relation (returnFrom environment node value) := by
  have found : Keeps relation (value.mapM (expression environment)) := by
    cases value with
    | none => exact frame.keeps_pure _
    | some value => exact frame.keeps_map _ (frame.keeps_expression environment value)
  refine frame.keeps_bind found fun _ => frame.keeps_bind frame.keeps_get fun _ => ?_
  split
  · exact frame.keeps_pure _
  · exact frame.keeps_pure _
  · exact frame.keeps_report environment _ rfl
  · exact frame.keeps_report environment _ rfl
  · split
    · exact frame.keeps_pure _
    · exact frame.keeps_return_value environment _ _ _ _

omit frame in
theorem is_placement_mismatch (operator : AssignOperator) (source target : Ty) :
    (mismatch operator source target).isPlacement = false := by
  unfold mismatch
  split <;> rfl

theorem keeps_store (statement : NodeId) (operator : AssignOperator) (value : NodeId)
    (targetType valueType : Option Ty) :
    Keeps relation (store environment statement operator value targetType valueType) := by
  unfold store
  split
  · split
    · split
      · exact frame.keeps_report environment _ rfl
      · split
        · exact frame.keeps_pure _
        · exact frame.keeps_insert_cast _ _ _
        · exact frame.keeps_report environment _ (is_placement_mismatch _ _ _)
    · exact frame.keeps_pure _
  · exact frame.keeps_pure _

theorem keeps_assigned_type (value : NodeId) : Keeps relation (assignedType environment value) := by
  refine frame.keeps_bind (frame.keeps_expression environment _) fun _ => ?_
  split
  · exact frame.keeps_bind (frame.keeps_report environment _ rfl) fun _ => frame.keeps_pure _
  · exact frame.keeps_pure _

theorem keeps_add_default (type : Ty) (source : NodeId) :
    Keeps relation (addDefault type source) := by
  unfold addDefault
  split
  · exact frame.keeps_add _ _
  · refine frame.keeps_bind (frame.keeps_add_type_ref _ _) fun _ => ?_
    refine frame.keeps_bind (frame.keeps_on_tree _) fun _ => ?_
    refine frame.keeps_bind (frame.keeps_set_type _ _) fun _ => ?_
    exact frame.keeps_bind (frame.keeps_on_tree _) fun _ => frame.keeps_pure _
  · exact frame.keeps_add _ _

end Statements

section Signatures

theorem keeps_parameter_type (parameter : NodeId) :
    Keeps relation (parameterType environment parameter) := by
  refine frame.keeps_bind (frame.keeps_kind _) fun _ => ?_
  split
  · refine frame.keeps_bind (frame.keeps_resolve_type environment _) fun _ => ?_
    exact frame.keeps_bind (frame.keeps_set_type _ _) fun _ => frame.keeps_pure _
  · exact Chained.keeps_throw _

theorem keeps_signature (function : NodeId) : Keeps relation (signature environment function) := by
  refine frame.keeps_bind (frame.keeps_kind _) fun _ => ?_
  split
  · rename_i result _ _ _
    have known : Keeps relation (resultType environment result) := by
      cases result with
      | none => exact frame.keeps_pure _
      | some written => exact frame.keeps_resolve_type environment _
    refine frame.keeps_bind known fun _ => ?_
    refine frame.keeps_bind (frame.keeps_mapM (frame.keeps_parameter_type environment) _) fun _ => ?_
    exact frame.keeps_pure _
  · exact Chained.keeps_throw _

end Signatures

end Rules

end Frame

/-- A relation that also tolerates declarations. A repeated name is noted and
reported. -/
structure OpenFrame (relation : InferenceState → InferenceState → Prop) : Prop extends
    Frame relation where
  scopes : ∀ state scopes, relation state { state with scopes }
  repeated : ∀ state duplicates (found : Diagnostic), found.kind.isJump = false →
    found.kind.level = .error → relation state
      { state with diagnostics := state.diagnostics ++ [found], duplicates }

namespace OpenFrame

variable {relation : InferenceState → InferenceState → Prop} (frame : OpenFrame relation)
  (environment : Environment)

include frame

theorem keeps_on_scopes (step : Scopes → Scopes) : Keeps relation (onScopes step) := by
  rintro start _ _ ran
  cases ran
  exact frame.scopes start _

theorem keeps_report_duplicate (earlier later : NodeId) (name : String) :
    Keeps relation (reportDuplicate environment earlier later name) := by
  refine frame.keeps_forM (fun node => ?_) _
  refine frame.keeps_bind frame.keeps_get fun _ => ?_
  split
  · intro start result final ran
    obtain ⟨_, _, noted, ran⟩ := ran_bind.mp ran
    cases noted
    obtain ⟨found, same, rfl⟩ := report_adds ran
    exact frame.repeated start _ found (by rw [same]; rfl) (by rw [same]; rfl)
  · exact frame.keeps_pure _

theorem keeps_define (definition : NodeId) (name : String) (type : Option Ty) :
    Keeps relation (define environment definition name type) := by
  refine frame.keeps_bind frame.keeps_scopes fun _ => ?_
  split
  · exact frame.keeps_report_duplicate environment _ _ _
  · exact frame.keeps_on_scopes _

theorem keeps_bare_definition (statement : NodeId) (type : Option NodeId) (name : String) :
    Keeps relation (bareDefinition environment statement type name) := by
  unfold bareDefinition
  split
  · refine frame.keeps_bind (frame.keeps_resolve_type environment _) fun _ => ?_
    refine frame.keeps_bind (frame.keeps_set_type _ _) fun _ => ?_
    refine frame.keeps_bind (frame.keeps_define environment _ _ _) fun _ => ?_
    split
    · exact frame.keeps_pure _
    · refine frame.keeps_bind (frame.keeps_add_default _ _) fun _ => ?_
      exact frame.keeps_add _ _
  · exact Chained.keeps_throw _

theorem keeps_implicit_definition (statement target : NodeId) (name : String)
    (valueType : Option Ty) :
    Keeps relation (implicitDefinition statement target name valueType) := by
  unfold implicitDefinition
  have written : ∀ found : Option Ty,
      Keeps relation (found.mapM fun type => addTypeRef type target) := by
    intro found
    cases found with
    | none => exact frame.keeps_pure _
    | some type => exact frame.keeps_map _ (frame.keeps_add_type_ref _ _)
  refine frame.keeps_bind (written _) fun _ => ?_
  refine frame.keeps_bind (frame.keeps_on_tree _) fun _ => ?_
  refine frame.keeps_bind (frame.keeps_set_type _ _) fun _ => ?_
  refine frame.keeps_bind (frame.keeps_on_tree _) fun _ => ?_
  exact frame.keeps_bind (frame.keeps_on_tree _) fun _ => frame.keeps_on_scopes _

theorem keeps_name_assignment (statement : NodeId) (operator : AssignOperator) (target : NodeId)
    (name : String) (value : NodeId) (valueType : Option Ty) :
    Keeps relation (nameAssignment environment statement operator target name value valueType) := by
  refine frame.keeps_bind frame.keeps_scopes fun _ => ?_
  split
  · refine frame.keeps_bind (frame.keeps_set_type _ _) fun _ => ?_
    exact frame.keeps_store environment _ _ _ _ _
  · split
    · exact frame.keeps_report environment _ rfl
    · split
      · refine frame.keeps_bind (frame.keeps_report_duplicate environment _ _ _) fun _ => ?_
        exact frame.keeps_bind (frame.keeps_set_type _ _) fun _ => frame.keeps_on_scopes _
      · exact frame.keeps_implicit_definition _ _ _ _

theorem keeps_assignment (statement : NodeId) (operator : AssignOperator) (target value : NodeId) :
    Keeps relation (assignment environment statement operator target value) := by
  refine frame.keeps_bind (frame.keeps_assigned_type environment _) fun _ => ?_
  refine frame.keeps_bind (frame.keeps_kind _) fun _ => ?_
  split
  · refine frame.keeps_bind (frame.keeps_resolve_type environment _) fun _ => ?_
    refine frame.keeps_bind (frame.keeps_set_type _ _) fun _ => ?_
    refine frame.keeps_bind (frame.keeps_define environment _ _ _) fun _ => ?_
    exact frame.keeps_store environment _ _ _ _ _
  · exact frame.keeps_name_assignment environment _ _ _ _ _ _
  · refine frame.keeps_bind (frame.keeps_expression environment _) fun _ => ?_
    exact frame.keeps_store environment _ _ _ _ _
  · refine frame.keeps_bind (frame.keeps_expression environment _) fun _ => ?_
    exact frame.keeps_store environment _ _ _ _ _
  · exact Chained.keeps_throw _

theorem keeps_declare_parameter (parameter : NodeId) :
    Keeps relation (declareParameter parameter) := by
  refine frame.keeps_bind (frame.keeps_kind _) fun _ => ?_
  split
  · refine frame.keeps_bind frame.keeps_scopes fun _ => ?_
    split
    · exact frame.keeps_bind (frame.keeps_type _) fun _ => frame.keeps_on_scopes _
    · exact frame.keeps_pure _
  · exact Chained.keeps_throw _

end OpenFrame

end Inference

end ModuleLang
