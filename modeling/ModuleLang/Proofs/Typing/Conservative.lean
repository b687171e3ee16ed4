import ModuleLang.Proofs.CheckedModule
import ModuleLang.Proofs.Typing.Naming

/-!
Two inferences of one module, the first without a host and the second with any host. A
host is asked only where nothing else gave an answer, and where no host answers an error
is reported. So up to the first error of the first inference both do the same, and errors
are never taken back.
-/

namespace ModuleLang

/-- The same surroundings without a host. -/
def Environment.unhosted (environment : Environment) : Environment :=
  { environment with host := .empty }

namespace Inference

variable {value image : Type}

/-- No error is taken back: a state that is clean was reached from a clean one. -/
def Stains (before after : InferenceState) : Prop := after.Clean → before.Clean

theorem stains_frame : OpenFrame Stains where
  refl _ := id
  trans first second := fun clean => first (second clean)
  tree _ _ := id
  report _ _ _ := clean_of_grown (List.prefix_append _ _)
  scopes _ _ := id
  repeated _ _ _ _ _ := clean_of_grown (List.prefix_append _ _)

/-- An action that leaves errors behind wherever it ends. -/
def Fails (action : Inference value) : Prop :=
  ∀ start result final, Ran action start result final → ¬ final.Clean

/-- Two actions that do the same, unless the first one leaves errors behind. -/
structure Conserves (plain hosted : Inference value) : Prop where
  keeps : Keeps Stains plain
  agrees : ∀ start, hosted.run start = plain.run start ∨
    ∀ result final, Ran plain start result final → ¬ final.Clean

theorem fails_report {environment : Environment} {node : NodeId} {kind : DiagnosticKind}
    {next : Unit → Inference value} (error : kind.level = .error)
    (keeps : ∀ result, Keeps Stains (next result)) :
    Fails (report environment node kind >>= next) := by
  intro start result final ran
  rcases ran_bind.mp ran with ⟨_, middle, reported, rest⟩
  rcases report_adds reported with ⟨found, same, rfl⟩
  intro clean
  exact not_clean_of_added same error (keeps _ _ _ _ rest clean)

namespace Conserves

theorem same {action : Inference value} (keeps : Keeps Stains action) : Conserves action action :=
  ⟨keeps, fun _ => .inl rfl⟩

theorem of_fails {plain hosted : Inference value} (keeps : Keeps Stains plain)
    (fails : Fails plain) : Conserves plain hosted :=
  ⟨keeps, fun start => .inr (fails start)⟩

theorem pure (result : value) : Conserves (pure result) (pure result) :=
  same (stains_frame.keeps_pure result)

theorem throw (failure : InternalError) :
    Conserves (throw failure : Inference value) (throw failure) :=
  same (Chained.keeps_throw failure)

theorem bind {plain hosted : Inference value} {next after : value → Inference image}
    (first : Conserves plain hosted) (rest : ∀ result, Conserves (next result) (after result)) :
    Conserves (plain >>= next) (hosted >>= after) where
  keeps := stains_frame.keeps_bind first.keeps fun result => (rest result).keeps
  agrees start := by
    have later : ∀ image final, Ran (plain >>= next) start image final →
        ∃ result middle, Ran plain start result middle ∧ Stains middle final := by
      intro image final ran
      rcases ran_bind.mp ran with ⟨result, middle, ran, more⟩
      exact ⟨result, middle, ran, (rest result).keeps _ _ _ more⟩
    rcases first.agrees start with equal | fails
    · rw [EStateM.run_bind, EStateM.run_bind, equal]
      cases ran : plain.run start with
      | error failure middle => exact .inl rfl
      | ok result middle =>
          rcases (rest result).agrees middle with equal | fails
          · exact .inl equal
          · refine .inr fun image final whole => ?_
            unfold Ran at whole
            rw [EStateM.run_bind, ran] at whole
            exact fails image final whole
    · refine .inr fun image final whole => ?_
      rcases later image final whole with ⟨result, middle, ran, stains⟩
      exact fun clean => fails result middle ran (stains clean)

theorem map {plain hosted : Inference value} (change : value → image)
    (only : Conserves plain hosted) : Conserves (change <$> plain) (change <$> hosted) := by
  rw [map_eq_pure_bind, map_eq_pure_bind]
  exact only.bind fun _ => .pure _

section Lists

variable {plain hosted : value → Inference image}
  (each : ∀ item, Conserves (plain item) (hosted item))

include each

theorem mapM (items : List value) : Conserves (items.mapM plain) (items.mapM hosted) := by
  induction items with
  | nil =>
      rw [List.mapM_nil, List.mapM_nil]
      exact .pure []
  | cons head tail ih =>
      rw [List.mapM_cons, List.mapM_cons]
      apply (each head).bind
      intro found
      apply ih.bind
      intro more
      exact .pure _

theorem option_mapM (held : Option value) : Conserves (held.mapM plain) (held.mapM hosted) := by
  cases held with
  | none => exact .pure none
  | some item => exact (each item).map some

end Lists

theorem forM {plain hosted : value → Inference PUnit}
    (each : ∀ item, Conserves (plain item) (hosted item)) (items : List value) :
    Conserves (items.forM plain) (items.forM hosted) := by
  induction items with
  | nil => exact .pure _
  | cons head tail ih => exact (each head).bind fun _ => ih

theorem option_forM {plain hosted : value → Inference PUnit}
    (each : ∀ item, Conserves (plain item) (hosted item)) (held : Option value) :
    Conserves (held.forM plain) (held.forM hosted) := by
  cases held with
  | none => exact .pure _
  | some item => exact each item

end Conserves

/-- A host is asked for what nothing else answers. So either it makes no difference, or
there is no answer without one. -/
theorem answer_unhosted {answer : Type} (own asked : Option answer) :
    (own <|> asked) = (own <|> none) ∨ (own <|> none) = none := by
  cases own with
  | none => exact .inr rfl
  | some known => exact .inl rfl

section Rules

variable (environment : Environment)

/-- What was reported without a host need not be the same with one. -/
theorem conserves_reported {node : NodeId} {kind : DiagnosticKind} {result : value}
    {hosted : Inference value} (error : kind.level = .error)
    (other : kind.isPlacement = false) :
    Conserves (do
      report environment.unhosted node kind
      return result) hosted := by
  have keeps : ∀ _ : Unit, Keeps Stains (Pure.pure result : Inference value) := fun _ =>
    stains_frame.keeps_pure result
  apply Conserves.of_fails
  · exact stains_frame.keeps_bind (stains_frame.keeps_report _ _ other) keeps
  · exact fails_report error keeps

theorem conserves_resolve_type (node : NodeId) :
    Conserves (resolveType environment.unhosted node) (resolveType environment node) := by
  unfold resolveType
  apply (Conserves.same (stains_frame.keeps_kind node)).bind
  intro kind
  split
  · rename_i name ranks
    have silent : environment.unhosted.host.type? name = none := rfl
    rw [silent]
    rcases answer_unhosted (Ty.builtin? name) (environment.host.type? name) with equal | unknown
    · rw [equal]
      apply Conserves.same
      split
      · apply stains_frame.keeps_bind (stains_frame.keeps_report environment _ rfl)
        exact fun _ => stains_frame.keeps_pure _
      · apply stains_frame.keeps_bind (stains_frame.keeps_set_type _ _)
        exact fun _ => stains_frame.keeps_pure _
    · rw [unknown]
      exact conserves_reported environment rfl rfl
  · exact .throw _

section Expressions

variable {plain hosted : NodeId → Inference (Option Ty)}
  (inner : ∀ node, Conserves (plain node) (hosted node))

include inner

theorem conserves_member_access (node owner : NodeId) (name : String) :
    Conserves (memberAccess environment.unhosted plain node owner name)
      (memberAccess environment hosted node owner name) := by
  apply (inner owner).bind
  intro found
  cases found with
  | none => exact .pure _
  | some type =>
      have silent : environment.unhosted.host.member? type name = none := rfl
      dsimp only
      rw [silent]
      rcases answer_unhosted (lengthMember? type name) (environment.host.member? type name) with
        equal | unknown
      · rw [equal]
        apply Conserves.same
        split
        · exact stains_frame.keeps_pure _
        · apply stains_frame.keeps_bind (stains_frame.keeps_report environment _ rfl)
          exact fun _ => stains_frame.keeps_pure _
      · rw [unknown]
        exact conserves_reported environment rfl rfl

theorem conserves_index_access (node target index : NodeId) :
    Conserves (indexAccess environment.unhosted plain node target index)
      (indexAccess environment hosted node target index) := by
  apply (inner target).bind
  intro targetType
  apply (inner index).bind
  intro indexType
  apply (Conserves.same (stains_frame.keeps_check_index environment _ _ _)).bind
  intro _
  apply Conserves.same
  split
  · exact stains_frame.keeps_pure _
  · exact stains_frame.keeps_pure _
  · apply stains_frame.keeps_bind (stains_frame.keeps_report environment _ rfl)
    exact fun _ => stains_frame.keeps_pure _
  · apply stains_frame.keeps_bind (stains_frame.keeps_report environment _ rfl)
    exact fun _ => stains_frame.keeps_pure _

theorem conserves_binary (node : NodeId) (operator : BinaryOperator) (left right : NodeId) :
    Conserves (binary environment.unhosted plain node operator left right)
      (binary environment hosted node operator left right) := by
  apply (inner left).bind
  intro leftType
  apply (inner right).bind
  intro rightType
  apply Conserves.same
  apply stains_frame.keeps_bind (stains_frame.keeps_common_type environment _ _ _ _ _ _)
  exact fun _ => stains_frame.keeps_pure _

theorem conserves_unary (node : NodeId) (operator : UnaryOperator) (operand : NodeId) :
    Conserves (unary environment.unhosted plain node operator operand)
      (unary environment hosted node operator operand) := by
  apply (inner operand).bind
  intro found
  apply Conserves.same
  split
  · exact stains_frame.keeps_pure _
  · dsimp only
    split
    · apply stains_frame.keeps_bind (stains_frame.keeps_report environment _ rfl)
      exact fun _ => stains_frame.keeps_pure _
    · exact stains_frame.keeps_pure _

omit inner in
/-- A host has no say in what a call means that has a meaning without one. -/
theorem candidates_unhosted (name : String) :
    candidates environment.unhosted name = candidates environment name ∨
      candidates environment.unhosted name = [] := by
  unfold candidates Environment.unhosted
  dsimp only
  split
  · split
    · exact .inl rfl
    · exact .inr rfl
  · exact .inl rfl

theorem conserves_call (node : NodeId) (name : String) (arguments : List NodeId) :
    Conserves (call environment.unhosted plain node name arguments)
      (call environment hosted node name arguments) := by
  apply (Conserves.same stains_frame.keeps_get).bind
  intro before
  apply (Conserves.mapM inner arguments).bind
  intro types
  apply (Conserves.same stains_frame.keeps_get).bind
  intro after
  rcases candidates_unhosted environment name with equal | none
  · rw [equal]
    apply Conserves.same
    dsimp only
    split
    · exact stains_frame.keeps_pure _
    · split
      · apply stains_frame.keeps_bind (stains_frame.keeps_report environment _ rfl)
        exact fun _ => stains_frame.keeps_pure _
      · exact stains_frame.keeps_pure _
  · rw [none]
    exact conserves_reported environment rfl rfl

theorem conserves_new_array (node element length : NodeId) :
    Conserves (newArray environment.unhosted plain node element length)
      (newArray environment hosted node element length) := by
  apply (conserves_resolve_type environment element).bind
  intro elementType
  apply (inner length).bind
  intro lengthType
  apply Conserves.same
  apply stains_frame.keeps_bind (stains_frame.keeps_check_index environment _ _ _)
  exact fun _ => stains_frame.keeps_pure _

theorem conserves_cast (node target operand : NodeId) :
    Conserves (cast environment.unhosted plain node target operand)
      (cast environment hosted node target operand) := by
  apply (conserves_resolve_type environment target).bind
  intro targetType
  apply (inner operand).bind
  intro source
  apply (Conserves.same (stains_frame.keeps_set_cast_source _ _)).bind
  intro _
  apply Conserves.same
  split
  · split
    · split
      · apply stains_frame.keeps_bind (stains_frame.keeps_report environment _ rfl)
        exact fun _ => stains_frame.keeps_pure _
      · exact stains_frame.keeps_pure _
    · exact stains_frame.keeps_pure _
  · exact stains_frame.keeps_pure _

theorem conserves_any_expression (node : NodeId) :
    Conserves (anyExpression environment.unhosted plain node)
      (anyExpression environment hosted node) := by
  apply (Conserves.same (stains_frame.keeps_kind node)).bind
  intro kind
  split
  · exact .pure _
  · exact .same (stains_frame.keeps_variable_type environment _ _)
  · exact conserves_member_access environment inner _ _ _
  · exact conserves_index_access environment inner _ _ _
  · exact conserves_binary environment inner _ _ _ _
  · exact conserves_unary environment inner _ _ _
  · exact conserves_call environment inner _ _ _
  · apply (conserves_resolve_type environment _).bind
    intro constructed
    refine Conserves.bind (Conserves.forM (fun argument => ?_) _) fun _ => .pure _
    exact (inner argument).bind fun _ => .pure _
  · exact conserves_new_array environment inner _ _ _
  · exact conserves_cast environment inner _ _ _
  · exact .throw _

end Expressions

theorem conserves_expression (node : NodeId) :
    Conserves (expression environment.unhosted node) (expression environment node) := by
  have within : ∀ budget node, Conserves (expressionWithin environment.unhosted budget node)
      (expressionWithin environment budget node) := by
    intro budget
    induction budget with
    | zero => exact fun _ => .throw _
    | succ budget ih =>
        intro node
        apply (conserves_any_expression environment ih node).bind
        intro type
        apply Conserves.same
        apply stains_frame.keeps_bind (stains_frame.keeps_set_type _ _)
        exact fun _ => stains_frame.keeps_pure _
  apply (Conserves.same stains_frame.keeps_get).bind
  intro start
  exact within _ _

theorem conserves_predicate (node : NodeId) :
    Conserves (predicate environment.unhosted node) (predicate environment node) := by
  apply (conserves_expression environment node).bind
  intro found
  apply Conserves.same
  split
  · exact stains_frame.keeps_pure _
  · split
    · exact stains_frame.keeps_report environment _ rfl
    · exact stains_frame.keeps_pure _

theorem conserves_return (node : NodeId) (value : Option NodeId) :
    Conserves (returnFrom environment.unhosted node value) (returnFrom environment node value) := by
  apply (Conserves.option_mapM (conserves_expression environment) value).bind
  intro found
  apply (Conserves.same stains_frame.keeps_get).bind
  intro state
  apply Conserves.same
  split
  · exact stains_frame.keeps_pure _
  · exact stains_frame.keeps_pure _
  · exact stains_frame.keeps_report environment _ rfl
  · exact stains_frame.keeps_report environment _ rfl
  · split
    · exact stains_frame.keeps_pure _
    · exact stains_frame.keeps_return_value environment _ _ _ _

theorem conserves_bare_definition (statement : NodeId) (type : Option NodeId) (name : String) :
    Conserves (bareDefinition environment.unhosted statement type name)
      (bareDefinition environment statement type name) := by
  cases type with
  | none => exact .throw _
  | some written =>
      apply (conserves_resolve_type environment written).bind
      intro declared
      apply Conserves.same
      apply stains_frame.keeps_bind (stains_frame.keeps_set_type _ _)
      intro _
      apply stains_frame.keeps_bind (stains_frame.keeps_define environment _ _ _)
      intro _
      split
      · exact stains_frame.keeps_pure _
      · apply stains_frame.keeps_bind (stains_frame.keeps_add_default _ _)
        exact fun _ => stains_frame.keeps_add _ _

theorem conserves_assignment (statement : NodeId) (operator : AssignOperator)
    (target value : NodeId) :
    Conserves (assignment environment.unhosted statement operator target value)
      (assignment environment statement operator target value) := by
  have assigned : Conserves (assignedType environment.unhosted value)
      (assignedType environment value) := by
    apply (conserves_expression environment value).bind
    intro found
    apply Conserves.same
    split
    · apply stains_frame.keeps_bind (stains_frame.keeps_report environment _ rfl)
      exact fun _ => stains_frame.keeps_pure _
    · exact stains_frame.keeps_pure _
  apply assigned.bind
  intro valueType
  apply (Conserves.same (stains_frame.keeps_kind target)).bind
  intro kind
  split
  · apply (conserves_resolve_type environment _).bind
    intro declared
    apply Conserves.same
    apply stains_frame.keeps_bind (stains_frame.keeps_set_type _ _)
    intro _
    apply stains_frame.keeps_bind (stains_frame.keeps_define environment _ _ _)
    exact fun _ => stains_frame.keeps_store environment _ _ _ _ _
  · exact .same (stains_frame.keeps_name_assignment environment _ _ _ _ _ _)
  · apply (conserves_expression environment _).bind
    exact fun _ => .same (stains_frame.keeps_store environment _ _ _ _ _)
  · apply (conserves_expression environment _).bind
    exact fun _ => .same (stains_frame.keeps_store environment _ _ _ _ _)
  · exact .throw _

/-- Steps on the parts of the state that no report is kept in. -/
theorem stains_modify {step : InferenceState → InferenceState}
    (silent : ∀ state, (step state).diagnostics = state.diagnostics) :
    Keeps Stains (modify step : Inference PUnit) := by
  rintro start _ _ ran clean
  cases ran
  unfold InferenceState.Clean at *
  rw [silent] at clean
  exact clean

theorem stains_jump (node : NodeId) (keyword : Keyword) :
    Keeps Stains (jump environment node keyword) := by
  apply stains_frame.keeps_bind stains_frame.keeps_get
  intro state
  split
  · rintro start result final ran clean
    rcases report_adds ran with ⟨found, -, rfl⟩
    exact clean_of_grown (List.prefix_append _ _) clean
  · exact stains_frame.keeps_pure _

section Statements

variable {plain hosted : NodeId → Inference NodeId}
  (inner : ∀ node, Conserves (plain node) (hosted node))

include inner

omit environment in
theorem conserves_body (node : NodeId) : Conserves (body plain node) (body hosted node) := by
  apply (Conserves.same (stains_frame.keeps_kind node)).bind
  intro kind
  split
  · apply (Conserves.same (stains_frame.keeps_on_scopes _)).bind
    intro _
    apply (Conserves.mapM inner _).bind
    intro checked
    apply Conserves.same
    apply stains_frame.keeps_bind (stains_frame.keeps_on_tree _)
    exact fun _ => stains_frame.keeps_on_scopes _
  · exact .throw _

theorem conserves_while_loop (condition block : NodeId) :
    Conserves (whileLoop environment.unhosted plain condition block)
      (whileLoop environment hosted condition block) := by
  apply (conserves_predicate environment condition).bind
  intro _
  refine Conserves.bind (.same (stains_modify ?_)) fun _ => ?_
  · exact fun _ => rfl
  · apply (conserves_body inner block).bind
    intro _
    refine .same (stains_modify ?_)
    exact fun _ => rfl

theorem conserves_any_statement (node : NodeId) :
    Conserves (anyStatement environment.unhosted plain node)
      (anyStatement environment hosted node) := by
  apply (Conserves.same (stains_frame.keeps_kind node)).bind
  intro kind
  split
  · exact conserves_bare_definition environment _ _ _
  · exact (conserves_assignment environment _ _ _ _).bind fun _ => .pure _
  · apply (conserves_predicate environment _).bind
    intro _
    apply (conserves_body inner _).bind
    intro _
    exact (Conserves.option_forM (conserves_body inner) _).bind fun _ => .pure _
  · exact (conserves_while_loop environment inner _ _).bind fun _ => .pure _
  · exact (conserves_return environment _ _).bind fun _ => .pure _
  · exact (Conserves.same (stains_jump environment _ _)).bind fun _ => .pure _
  · exact (Conserves.same (stains_jump environment _ _)).bind fun _ => .pure _
  · exact (conserves_body inner _).bind fun _ => .pure _
  · exact (conserves_expression environment _).bind fun _ => .pure _
  · exact (conserves_expression environment _).bind fun _ => .pure _
  · exact (conserves_expression environment _).bind fun _ => .pure _
  · exact .throw _

end Statements

theorem conserves_whole_body (node : NodeId) :
    Conserves (wholeBody environment.unhosted node) (wholeBody environment node) := by
  have within : ∀ budget node, Conserves (statementWithin environment.unhosted budget node)
      (statementWithin environment budget node) := by
    intro budget
    induction budget with
    | zero => exact fun _ => .throw _
    | succ budget ih => exact fun node => conserves_any_statement environment ih node
  apply (Conserves.same stains_frame.keeps_get).bind
  intro start
  exact conserves_body (within _) node

theorem conserves_signature (function : NodeId) :
    Conserves (signature environment.unhosted function) (signature environment function) := by
  have parameter : ∀ parameter, Conserves (parameterType environment.unhosted parameter)
      (parameterType environment parameter) := by
    intro parameter
    apply (Conserves.same (stains_frame.keeps_kind parameter)).bind
    intro kind
    split
    · apply (conserves_resolve_type environment _).bind
      intro type
      apply Conserves.same
      apply stains_frame.keeps_bind (stains_frame.keeps_set_type _ _)
      exact fun _ => stains_frame.keeps_pure _
    · exact .throw _
  have result : ∀ written, Conserves (resultType environment.unhosted written)
      (resultType environment written) := by
    intro written
    cases written with
    | none => exact .pure _
    | some written => exact conserves_resolve_type environment written
  apply (Conserves.same (stains_frame.keeps_kind function)).bind
  intro kind
  split
  · apply (result _).bind
    intro _
    exact (Conserves.mapM parameter _).bind fun _ => .pure _
  · exact .throw _

theorem conserves_function (node : NodeId) :
    Conserves (function environment.unhosted node) (function environment node) := by
  have enters : ∀ result, Keeps Stains (enter result) := by
    intro result
    unfold enter
    cases result with
    | none =>
        apply stains_frame.keeps_bind (stains_frame.keeps_pure _)
        exact fun _ => stains_modify fun _ => rfl
    | some written =>
        apply stains_frame.keeps_bind (stains_frame.keeps_type _)
        exact fun _ => stains_modify fun _ => rfl
  apply (Conserves.same (stains_frame.keeps_kind node)).bind
  intro kind
  split
  · apply (Conserves.same (enters _)).bind
    intro _
    apply (Conserves.forM (fun parameter => .same
      (stains_frame.keeps_declare_parameter parameter)) _).bind
    exact fun _ => conserves_whole_body environment _
  · exact .throw _

end Rules

theorem conserves_whole_module (fileName : String) (host : Host) (root : NodeId) :
    Conserves (wholeModule fileName .empty root) (wholeModule fileName host root) := by
  apply (Conserves.same (stains_frame.keeps_kind root)).bind
  intro kind
  split
  · apply (Conserves.mapM (conserves_signature ⟨fileName, host, []⟩) _).bind
    intro signatures
    exact .forM (conserves_function ⟨fileName, host, signatures⟩) _
  · exact .throw _

end Inference

namespace CheckedModule

/-- With a host, the stages do the same, unless there are errors without one. -/
theorem stages_hosted (host : Host) (root : ModuleRoot) (tree : SourceTree) :
    (stages host root).run tree = (stages .empty root).run tree ∨
      ∀ found final, (stages .empty root).run tree = .ok found final →
        Diagnostic.hasErrors found = true := by
  have inference := Inference.conserves_whole_module root.fileName host root.node
  rcases inference.agrees (.initial tree) with equal | unclean
  · left
    have same : (SourceTree.inferTypes root.fileName host root.node).run tree =
        (SourceTree.inferTypes root.fileName .empty root.node).run tree := by
      change Inference.diagnose _ tree = Inference.diagnose _ tree
      unfold Inference.diagnose
      rw [equal]
    unfold stages
    rw [EStateM.run_bind, EStateM.run_bind, same]
  · right
    intro found final ran
    unfold stages at ran
    rcases ran_bind.mp ran with ⟨inferred, middle, inferring, rest⟩
    rcases ran_bind.mp rest with ⟨validated, last, -, collected⟩
    cases collected
    have erred : Diagnostic.hasErrors inferred = true := by
      change Inference.diagnose _ tree = _ at inferring
      unfold Inference.diagnose at inferring
      split at inferring
      · rename_i result state inferred
        cases inferring
        exact eq_true_of_ne_false (unclean result state inferred)
      · cases inferring
    unfold Diagnostic.hasErrors at *
    rw [List.any_append, erred, Bool.true_or]

/-- A text that is checked without an error and without a host means the same to every
host: the tree with its types and spans, and the reports are the same. -/
theorem of_text_hosted (text fileName : String) (host : Host) :
    ∃ checked, ofText text fileName .empty = .ok checked ∧
      (checked.hasErrors = false → ofText text fileName host = .ok checked) := by
  rcases of_text_proper text fileName .empty with ⟨checked, ran, -⟩
  refine ⟨checked, ran, fun clean => ?_⟩
  rcases ParsedModule.of_text_proper text fileName with ⟨parsed, parsing, -, -⟩
  have plain : ofParsed parsed .empty = .ok checked := by
    unfold ofText at ran
    rw [parsing] at ran
    exact ran
  have hosted : ofParsed parsed host = .ok checked := by
    rcases stages_hosted host ⟨parsed.root, parsed.fileName⟩ parsed.tree with same | erred
    · rw [← plain]
      unfold ofParsed
      rw [same]
    · -- Errors of the stages are among those of the module.
      unfold ofParsed at plain
      split at plain
      · rename_i found tree staged
        cases plain
        have errors := erred found tree staged
        simp only [hasErrors, Diagnostic.hasErrors, List.any_append, Bool.or_eq_false_iff] at clean
        rw [Diagnostic.hasErrors, clean.2] at errors
        cases errors
      · cases plain
  unfold ofText
  rw [parsing]
  exact hosted

/-- A host that has its own idea of names that the language, or a module, gives a
meaning. -/
def claimingHost : Host where
  types := ["int", "string"]
  functions := [.known "f" [.int] .bool, .known "print" [.any] .int]
  members := [((.string, "length"), .bool)]

/-- A module that calls itself, an intrinsic function, and asks for a member. -/
def selfContainedText : String :=
  "module m; fn int f(string s) \x7b print(s); if (s.length < 3) return f(s); return 0; \x7d"

theorem of_text_hosted_sample :
    ∃ checked, ofText selfContainedText "m.plp" .empty = .ok checked ∧
      checked.hasErrors = false ∧
      ofText selfContainedText "m.plp" claimingHost = .ok checked := by
  rcases of_text_hosted selfContainedText "m.plp" claimingHost with ⟨checked, ran, hosted⟩
  have clean : (ofText selfContainedText "m.plp" .empty).toOption.map hasErrors = some false := by
    decide +kernel
  rw [ran] at clean
  have clean := Option.some.inj clean
  exact ⟨checked, ran, clean, hosted clean⟩

end CheckedModule

end ModuleLang
