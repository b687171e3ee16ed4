import ModuleLang.Proofs.Linked.Adding
import ModuleLang.Typing.Inference.Expression
import ModuleLang.Typing.Inference.Module

/-!
The rules for expressions in linked states. A rule for an operator looks at types and
candidates only, and a call asks whether something was reported since its arguments were
begun, so what was reported before makes no difference.
-/

namespace ModuleLang

namespace Inference

variable {link : Link} {environment other : Environment} (agrees : Agree environment other)

/-- Both have reported something since, or neither has. -/
theorem Link.Linked.reported_since {one two middle between : InferenceState}
    (before : link.Linked one two) (after : link.Linked middle between) :
    decide (two.diagnostics.length < between.diagnostics.length) =
      decide (one.diagnostics.length < middle.diagnostics.length) := by
  rcases before.reports with ⟨more, first, second⟩
  rcases after.reports with ⟨rest, third, fourth⟩
  rw [first, second, third, fourth]
  simp only [List.length_append, Nat.add_lt_add_iff_left]

section Rules

variable {infer again : NodeId → Inference (Option Ty)}
  (inner : ∀ node, link.Own node → Matches link Eq (infer node) (again (link.rename node)))
  {node : NodeId} (own : link.Own node)

include agrees own

theorem matches_variable_type (name : String) :
    Matches link Eq (variableType environment node name)
      (variableType other (link.rename node) name) := by
  apply matches_scopes.bind
  rintro names _ ⟨rfl, -⟩
  rw [Scopes.lookup_renamed]
  cases names.lookup name with
  | some binding => exact .pure rfl
  | none =>
      apply (matches_report agrees own _).next
      intro _
      exact .pure rfl

theorem matches_check_index {index : NodeId} (slot : link.Own index) (type : Option Ty) :
    Matches link Eq (checkIndex environment node index type)
      (checkIndex other (link.rename node) (link.rename index) type) := by
  unfold checkIndex
  split
  · exact .pure rfl
  · split
    · exact .pure rfl
    · split
      · exact matches_insert_cast own slot _
      · exact matches_report agrees slot _

theorem matches_common_type (operator : BinaryOperator) {left right : NodeId}
    (first : link.Own left) (second : link.Own right) (leftType rightType : Option Ty) :
    Matches link Eq (commonType environment node operator left right leftType rightType)
      (commonType other (link.rename node) operator (link.rename left) (link.rename right)
        leftType rightType) := by
  have rejected : Matches link Eq
      (do
        report environment node (.cannotApplyOperator operator.symbol)
        return (none : Option Ty))
      (do
        report other (link.rename node) (.cannotApplyOperator operator.symbol)
        return none) := by
    apply (matches_report agrees own _).next
    intro _
    exact .pure rfl
  unfold commonType
  split
  · exact .pure rfl
  · split
    · exact .pure rfl
    · unfold unify
      split
      · exact .pure rfl
      · apply (matches_insert_cast own first _).next
        intro _
        exact .pure rfl
      · apply (matches_insert_cast own second _).next
        intro _
        exact .pure rfl
      · exact rejected
    · exact rejected

omit agrees in
theorem matches_set_cast_source (source : Option Ty) :
    Matches link Eq (setCastSource node source) (setCastSource (link.rename node) source) := by
  unfold setCastSource
  apply matches_kind own
  · exact .pure rfl
  · intro kind slots
    cases kind with
    | cast target operand before =>
        exact @matches_set_kind link node own (.cast target operand source) slots
    | _ => exact .pure rfl

include inner

theorem matches_member_access {owner : NodeId} (slot : link.Own owner) (name : String) :
    Matches link Eq (memberAccess environment infer node owner name)
      (memberAccess other again (link.rename node) (link.rename owner) name) := by
  apply (inner owner slot).next
  intro ownerType
  cases ownerType with
  | none => exact .pure rfl
  | some ownerType =>
      dsimp only
      rw [agrees.host]
      split
      · exact .pure rfl
      · apply (matches_report agrees own _).next
        intro _
        exact .pure rfl

theorem matches_index_access {target index : NodeId} (first : link.Own target)
    (second : link.Own index) :
    Matches link Eq (indexAccess environment infer node target index)
      (indexAccess other again (link.rename node) (link.rename target) (link.rename index)) := by
  apply (inner target first).next
  intro targetType
  apply (inner index second).next
  intro indexType
  apply (matches_check_index agrees own second indexType).next
  intro _
  split
  · exact .pure rfl
  · exact .pure rfl
  · apply (matches_report agrees own _).next
    intro _
    exact .pure rfl
  · apply (matches_report agrees first _).next
    intro _
    exact .pure rfl

theorem matches_binary (operator : BinaryOperator) {left right : NodeId} (first : link.Own left)
    (second : link.Own right) :
    Matches link Eq (binary environment infer node operator left right)
      (binary other again (link.rename node) operator (link.rename left) (link.rename right)) := by
  apply (inner left first).next
  intro leftType
  apply (inner right second).next
  intro rightType
  apply (matches_common_type agrees own operator first second leftType rightType).next
  intro _
  exact .pure rfl

theorem matches_unary (operator : UnaryOperator) {operand : NodeId} (slot : link.Own operand) :
    Matches link Eq (unary environment infer node operator operand)
      (unary other again (link.rename node) operator (link.rename operand)) := by
  apply (inner operand slot).next
  intro type
  split
  · exact .pure rfl
  · dsimp only
    split
    · apply (matches_report agrees own _).next
      intro _
      exact .pure rfl
    · exact .pure rfl

theorem matches_call (name : String) {arguments : List NodeId}
    (slots : ∀ argument ∈ arguments, link.Own argument) :
    Matches link Eq (call environment infer node name arguments)
      (call other again (link.rename node) name (arguments.map link.rename)) := by
  apply matches_get.bind
  intro one two before
  apply (Matches.values fun argument member => inner argument (slots argument member)).next
  intro types
  apply matches_get.bind
  intro middle between after
  dsimp only
  rw [agrees.candidates, before.reported_since after, List.length_map]
  split
  · exact .pure rfl
  · split
    · apply (matches_report agrees own _).next
      intro _
      exact .pure rfl
    · exact .pure rfl

theorem matches_new_array {element length : NodeId} (first : link.Own element)
    (second : link.Own length) :
    Matches link Eq (newArray environment infer node element length)
      (newArray other again (link.rename node) (link.rename element) (link.rename length)) := by
  apply (matches_resolve_type agrees first).next
  intro elementType
  apply (inner length second).next
  intro lengthType
  apply (matches_check_index agrees own second lengthType).next
  intro _
  exact .pure rfl

theorem matches_cast {target operand : NodeId} (first : link.Own target)
    (second : link.Own operand) :
    Matches link Eq (cast environment infer node target operand)
      (cast other again (link.rename node) (link.rename target) (link.rename operand)) := by
  apply (matches_resolve_type agrees first).next
  intro targetType
  apply (inner operand second).next
  intro source
  apply (matches_set_cast_source own source).next
  intro _
  split
  · split
    · split
      · apply (matches_report agrees own _).next
        intro _
        exact .pure rfl
      · exact .pure rfl
    · exact .pure rfl
  · exact .pure rfl

theorem matches_any_expression : Matches link Eq (anyExpression environment infer node)
    (anyExpression other again (link.rename node)) := by
  apply matches_kind own (.throw_left _)
  intro kind slots
  cases kind with
  | literal value => exact .pure rfl
  | member name => exact matches_variable_type agrees own name
  | memberAccess owner name =>
      exact matches_member_access agrees inner own (slots owner List.mem_cons_self) name
  | indexAccess target index =>
      simp only [NodeKind.children, List.forall_mem_cons] at slots
      exact matches_index_access agrees inner own slots.1 slots.2.1
  | binary operator left right =>
      simp only [NodeKind.children, List.forall_mem_cons] at slots
      exact matches_binary agrees inner own operator slots.1 slots.2.1
  | unary operator operand =>
      exact matches_unary agrees inner own operator (slots operand List.mem_cons_self)
  | call name arguments => exact matches_call agrees inner own name slots
  | construct written arguments =>
      simp only [NodeKind.children, List.forall_mem_cons] at slots
      apply (matches_resolve_type agrees slots.1).next
      intro constructed
      refine Matches.next (Matches.forM fun argument member => ?_) fun _ => .pure rfl
      apply (inner argument (slots.2 argument member)).next
      intro _
      exact .pure rfl
  | newArray element length =>
      simp only [NodeKind.children, List.forall_mem_cons] at slots
      exact matches_new_array agrees inner own slots.1 slots.2.1
  | cast target operand source =>
      simp only [NodeKind.children, List.forall_mem_cons] at slots
      exact matches_cast agrees inner own slots.1 slots.2.1
  | _ => exact .throw_left _

end Rules

include agrees in
/-- The bounds on the recursion need not be the same, as long as neither is reached. -/
theorem matches_expression {node : NodeId} (own : link.Own node) :
    Matches link Eq (expression environment node) (expression other (link.rename node)) := by
  have within : ∀ budget less node, link.Own node →
      Matches link Eq (expressionWithin environment budget node)
        (expressionWithin other less (link.rename node)) := by
    intro budget
    induction budget with
    | zero => exact fun _ _ _ => .throw_left _
    | succ budget ih =>
        intro less node own
        cases less with
        | zero => exact .throw_right _
        | succ less =>
            apply (matches_any_expression agrees (ih less) own).next
            intro type
            apply (matches_set_type own type).next
            intro _
            exact .pure rfl
  apply matches_get.bind
  intro one two _
  exact within _ _ node own

end Inference

/-!
The rules for statements, bodies and functions in linked states. A statement is replaced by
the same node in both, and names are declared as the same nodes. A function starts with no
names and no loop around, and so with the same surroundings wherever it stands.
-/

namespace Inference

variable {link : Link} {environment other : Environment} (agrees : Agree environment other)
  {node : NodeId} (own : link.Own node)

section Rules

include agrees own

theorem matches_predicate : Matches link Eq (predicate environment node)
    (predicate other (link.rename node)) := by
  apply (matches_expression agrees own).next
  intro found
  split
  · exact .pure rfl
  · split
    · exact matches_report agrees own _
    · exact .pure rfl

theorem matches_jump (keyword : Keyword) : Matches link Eq (jump environment node keyword)
    (jump other (link.rename node) keyword) := by
  apply matches_get.bind
  intro one two linked
  rw [linked.loopDepth]
  split
  · exact matches_report agrees own _
  · exact .pure rfl

theorem matches_return_value {value : NodeId} (slot : link.Own value) (found expected : Ty) :
    Matches link Eq (returnValue environment node value found expected)
      (returnValue other (link.rename node) (link.rename value) found expected) := by
  unfold returnValue
  split
  · exact .pure rfl
  · exact matches_insert_cast own slot _
  · exact matches_report agrees own _

theorem matches_return {value : Option NodeId} (slots : ∀ child ∈ value.toList, link.Own child) :
    Matches link Eq (returnFrom environment node value)
      (returnFrom other (link.rename node) (value.map link.rename)) := by
  apply (Matches.option_values fun child slot => matches_expression agrees (slots child slot)).next
  intro found
  apply matches_get.bind
  intro one two linked
  rw [linked.result]
  cases value with
  | none =>
      cases one.result with
      | none => exact .pure rfl
      | some expected =>
          cases expected with
          | void => exact .pure rfl
          | _ => exact matches_report agrees own _
  | some value =>
      have slot := slots value List.mem_cons_self
      cases one.result with
      | none => exact .pure rfl
      | some expected =>
          cases expected with
          | void => exact matches_report agrees own _
          | _ =>
              cases found.join with
              | none => exact .pure rfl
              | some found => exact matches_return_value agrees own slot _ _

theorem matches_store (operator : AssignOperator) {value : NodeId} (slot : link.Own value)
    (targetType valueType : Option Ty) :
    Matches link Eq (store environment node operator value targetType valueType)
      (store other (link.rename node) operator (link.rename value) targetType valueType) := by
  unfold store
  split
  · split
    · split
      · exact matches_report agrees own _
      · split
        · exact .pure rfl
        · exact matches_insert_cast own slot _
        · exact matches_report agrees own _
    · exact .pure rfl
  · exact .pure rfl

theorem matches_define (name : String) (type : Option Ty) :
    Matches link Eq (define environment node name type)
      (define other (link.rename node) name type) := by
  apply matches_scopes.bind
  rintro names _ ⟨rfl, bound⟩
  rw [Scopes.lookup_renamed, Scopes.nested_renamed]
  cases visible : names.lookup name with
  | some binding =>
      exact matches_report_duplicate agrees (bound _ (Scopes.node_of_lookup visible)) own name
  | none =>
      cases nested : names.nested name with
      | some earlier =>
          exact matches_report_duplicate agrees (bound _ (Scopes.node_of_nested nested)) own name
      | none => exact matches_declare own name type .inner

theorem matches_bare_definition {type : Option NodeId} (name : String)
    (slots : ∀ child ∈ type.toList, link.Own child) :
    Matches link link.Twin (bareDefinition environment node type name)
      (bareDefinition other (link.rename node) (type.map link.rename) name) := by
  cases type with
  | none => exact .throw_left _
  | some written =>
      apply (matches_resolve_type agrees (slots written List.mem_cons_self)).next
      intro declared
      apply (matches_set_type own declared).next
      intro _
      apply (matches_define agrees own name declared).next
      intro _
      cases declared with
      | none => exact .pure ⟨own, rfl⟩
      | some declared =>
          apply (matches_default own declared).bind
          rintro value _ ⟨first, rfl⟩
          exact @matches_add link node (.assign .assign node value) own
            (List.forall_mem_cons.mpr ⟨own, List.forall_mem_singleton.mpr first⟩)

theorem matches_name_assignment (operator : AssignOperator) {target value : NodeId}
    (first : link.Own target) (second : link.Own value) (name : String) (type : Option Ty) :
    Matches link Eq (nameAssignment environment node operator target name value type)
      (nameAssignment other (link.rename node) operator (link.rename target) name
        (link.rename value) type) := by
  apply matches_scopes.bind
  rintro names _ ⟨rfl, bound⟩
  rw [Scopes.lookup_renamed]
  cases names.lookup name with
  | some binding =>
      apply (matches_set_type first binding.type).next
      intro _
      exact matches_store agrees own operator second _ _
  | none =>
      dsimp only [Option.map_none]
      split
      · exact matches_report agrees first _
      · rw [Scopes.nested_renamed]
        cases nested : names.nested name with
        | some earlier =>
            have known := bound earlier (Scopes.node_of_nested nested)
            apply (matches_report_duplicate agrees known first name).next
            intro _
            apply (matches_set_type first type).next
            intro _
            exact matches_declare first name type .inner
        | none => exact matches_implicit_definition own first name type

theorem matches_assigned_type : Matches link Eq (assignedType environment node)
    (assignedType other (link.rename node)) := by
  apply (matches_expression agrees own).next
  intro found
  split
  · apply (matches_report agrees own _).next
    intro _
    exact .pure rfl
  · exact .pure rfl

theorem matches_assignment (operator : AssignOperator) {target value : NodeId}
    (first : link.Own target) (second : link.Own value) :
    Matches link Eq (assignment environment node operator target value)
      (assignment other (link.rename node) operator (link.rename target) (link.rename value)) := by
  apply (matches_assigned_type agrees second).next
  intro valueType
  have accessed : Matches link Eq
      (do
        let targetType ← expression environment target
        store environment node operator value targetType valueType)
      (do
        let targetType ← expression other (link.rename target)
        store other (link.rename node) operator (link.rename value) targetType valueType) := by
    apply (matches_expression agrees first).next
    intro targetType
    exact matches_store agrees own operator second _ _
  apply matches_kind first (.throw_left _)
  intro kind slots
  cases kind with
  | definition type name =>
      cases type with
      | none => exact .throw_left _
      | some written =>
          apply (matches_resolve_type agrees (slots written List.mem_cons_self)).next
          intro declared
          apply (matches_set_type first declared).next
          intro _
          apply (matches_define agrees first name declared).next
          intro _
          exact matches_store agrees own operator second _ _
  | member name => exact matches_name_assignment agrees own operator first second name valueType
  | memberAccess owner name => exact accessed
  | indexAccess array index => exact accessed
  | _ => exact .throw_left _

end Rules

section Nested

variable {check again : NodeId → Inference NodeId}
  (inner : ∀ node, link.Own node → Matches link link.Twin (check node) (again (link.rename node)))

include inner own

theorem matches_body : Matches link Eq (body check node) (body again (link.rename node)) := by
  apply matches_kind own (.throw_left _)
  intro kind slots
  cases kind with
  | body statements =>
      have opened : Matches link Eq (onScopes Scopes.push) (onScopes Scopes.push) :=
        matches_on_scopes (Scopes.push_renamed link.rename) fun _ _ member =>
          .inr (Scopes.nodes_push member)
      have closed : Matches link Eq (onScopes Scopes.pop) (onScopes Scopes.pop) :=
        matches_on_scopes (Scopes.pop_renamed link.rename) fun _ _ member =>
          .inr (Scopes.nodes_pop member)
      apply opened.next
      intro _
      apply (Matches.mapM fun statement member => inner statement (slots statement member)).bind
      intro checked others twins
      rcases link.twins twins with ⟨rfl, made⟩
      apply (@matches_set_kind link node own (.body checked) made).next
      intro _
      exact closed
  | _ => exact .throw_left _

include agrees

omit own in
theorem matches_while_loop {condition block : NodeId} (first : link.Own condition)
    (second : link.Own block) :
    Matches link Eq (whileLoop environment check condition block)
      (whileLoop other again (link.rename condition) (link.rename block)) := by
  apply (matches_predicate agrees first).next
  intro _
  apply (matches_modify fun one two linked => ?_).next
  · intro _
    apply (matches_body second inner).next
    intro _
    apply matches_modify
    intro one two linked
    rw [linked.loopDepth]
    exact linked.with_depth _
  · rw [linked.loopDepth]
    exact linked.with_depth _

theorem matches_any_statement : Matches link link.Twin (anyStatement environment check node)
    (anyStatement other again (link.rename node)) := by
  have kept : Matches link link.Twin (pure node) (pure (link.rename node)) := .pure ⟨own, rfl⟩
  have evaluated : Matches link link.Twin
      (do
        let _ ← expression environment node
        return node)
      (do
        let _ ← expression other (link.rename node)
        return link.rename node) := by
    apply (matches_expression agrees own).next
    intro _
    exact kept
  apply matches_kind own (.throw_left _)
  intro kind slots
  cases kind with
  | definition type name => exact matches_bare_definition agrees own name slots
  | assign operator target value =>
      simp only [NodeKind.children, List.forall_mem_cons] at slots
      apply (matches_assignment agrees own operator slots.1 slots.2.1).next
      intro _
      exact kept
  | condition condition thenBody elseBody =>
      simp only [NodeKind.children, List.forall_mem_cons] at slots
      apply (matches_predicate agrees slots.1).next
      intro _
      apply (matches_body slots.2.1 inner).next
      intro _
      apply (Matches.option_forM fun block slot =>
        matches_body (slots.2.2 block slot) inner).next
      intro _
      exact kept
  | loop condition block =>
      simp only [NodeKind.children, List.forall_mem_cons] at slots
      apply (matches_while_loop agrees inner slots.1 slots.2.1).next
      intro _
      exact kept
  | returnFrom value =>
      apply (matches_return agrees own slots).next
      intro _
      exact kept
  | breakLoop =>
      apply (matches_jump agrees own .breakWord).next
      intro _
      exact kept
  | continueLoop =>
      apply (matches_jump agrees own .continueWord).next
      intro _
      exact kept
  | body statements =>
      apply (matches_body own inner).next
      intro _
      exact kept
  | call name arguments => exact evaluated
  | construct written arguments => exact evaluated
  | unary operator operand => exact evaluated
  | _ => exact .throw_left _

end Nested

include agrees own

theorem matches_whole_body : Matches link Eq (wholeBody environment node)
    (wholeBody other (link.rename node)) := by
  have within : ∀ budget less node, link.Own node →
      Matches link link.Twin (statementWithin environment budget node)
        (statementWithin other less (link.rename node)) := by
    intro budget
    induction budget with
    | zero => exact fun _ _ _ => .throw_left _
    | succ budget ih =>
        intro less node own
        cases less with
        | zero => exact .throw_right _
        | succ less => exact matches_any_statement agrees own (ih less)
  apply matches_get.bind
  intro one two _
  exact matches_body own (within _ _)

omit agrees in
theorem matches_declare_parameter : Matches link Eq (declareParameter node)
    (declareParameter (link.rename node)) := by
  apply matches_kind own (.throw_left _)
  intro kind slots
  cases kind with
  | parameter written name =>
      apply matches_scopes.bind
      rintro names _ ⟨rfl, -⟩
      rw [Scopes.lookup_renamed, Option.isNone_map]
      split
      · apply (matches_type own).next
        intro type
        exact matches_declare own name type .parameter
      · exact .pure rfl
  | _ => exact .throw_left _

theorem matches_parameter_type : Matches link Eq (parameterType environment node)
    (parameterType other (link.rename node)) := by
  apply matches_kind own (.throw_left _)
  intro kind slots
  cases kind with
  | parameter written name =>
      apply (matches_resolve_type agrees (slots written List.mem_cons_self)).next
      intro type
      apply (matches_set_type own type).next
      intro _
      exact .pure rfl
  | _ => exact .throw_left _

/-- The signature of a function does not depend on what was looked at before. -/
theorem matches_signature : Matches link Eq (signature environment node)
    (signature other (link.rename node)) := by
  apply matches_kind own (.throw_left _)
  intro kind slots
  cases kind with
  | function result name parameters block =>
      simp only [NodeKind.children, List.forall_mem_append] at slots
      have found : Matches link Eq (resultType environment result)
          (resultType other (result.map link.rename)) := by
        cases result with
        | none => exact .pure rfl
        | some written => exact matches_resolve_type agrees (slots.1.1 written List.mem_cons_self)
      apply found.next
      intro resultType
      apply (Matches.values fun parameter member =>
        matches_parameter_type agrees (slots.1.2 parameter member)).next
      intro parameterTypes
      exact .pure rfl
  | _ => exact .throw_left _

end Inference

end ModuleLang
