import ModuleLang.Proofs.Typing.Naming

/-!
What the rules for statements do. A rule that succeeds declares at most one name,
and stores at most one type in a node that was there before; a name that cannot be
declared is reported.
-/

namespace ModuleLang.Inference

variable {environment : Environment}

theorem grows_frame : OpenFrame fun before after : InferenceState =>
    before.diagnostics <+: after.diagnostics where
  refl _ := List.prefix_refl _
  trans := List.IsPrefix.trans
  tree _ _ := List.prefix_refl _
  report _ _ _ := List.prefix_append _ _
  scopes _ _ := List.prefix_refl _
  repeated _ _ _ _ _ := List.prefix_append _ _

section Steps

variable {start final : InferenceState}

theorem not_clean_of_report {node : NodeId} {kind : DiagnosticKind} {result : Unit}
    (ran : Ran (report environment node kind) start result final) (error : kind.level = .error) :
    ¬ final.Clean := by
  obtain ⟨found, same, rfl⟩ := report_adds ran
  exact not_clean_of_added same error

/-- The first repetition of a name is reported. -/
theorem not_clean_of_duplicate {earlier later : NodeId} {name : String} {result : Unit}
    (ran : Ran (reportDuplicate environment earlier later name) start result final)
    (fresh : start.duplicates = []) : ¬ final.Clean := by
  obtain ⟨_, first, one, rest⟩ := ran_bind.mp
    (show Ran (_ >>= fun _ => _) start result final from ran)
  obtain ⟨_, _, got, one⟩ := ran_bind.mp one
  cases got
  rw [if_pos (by rw [fresh]; rfl)] at one
  obtain ⟨_, _, noted, one⟩ := ran_bind.mp one
  have later' : first.diagnostics <+: final.diagnostics := by
    refine grows_frame.keeps_forM (fun node => ?_) [later] _ _ _ rest
    refine grows_frame.keeps_bind grows_frame.keeps_get fun _ => ?_
    split
    · rintro start _ _ ran
      obtain ⟨_, _, noted, ran⟩ := ran_bind.mp ran
      cases noted
      obtain ⟨_, -, rfl⟩ := report_adds ran
      exact List.prefix_append _ _
    · exact grows_frame.keeps_pure _
  exact fun clean => not_clean_of_report one rfl (clean_of_grown later' clean)

/-- A jump that is not reported stands in a loop, and changes nothing. -/
theorem ran_jump {node now : NodeId} {keyword : Keyword}
    (ran : Ran (do
      jump environment node keyword
      return node) start now final) (clean : final.Clean) :
    now = node ∧ final = start ∧ start.loopDepth ≠ 0 := by
  rcases ran_bind.mp ran with ⟨_, _, jumped, ran⟩
  cases ran
  rcases ran_bind.mp jumped with ⟨_, _, got, jumped⟩
  cases got
  split at jumped
  · exact absurd clean (not_clean_of_report jumped rfl)
  · rename_i inside
    cases jumped
    exact ⟨rfl, rfl, inside⟩

/-- A definition that is not reported declares a name that was neither visible nor
declared in a nested body. -/
theorem ran_define {definition : NodeId} {name : String} {type : Option Ty} {result : Unit}
    (ran : Ran (define environment definition name type) start result final)
    (fresh : start.duplicates = []) (clean : final.Clean) :
    (start.scopes.lookup name = none ∧ start.scopes.nested name = none) ∧
      final = { start with scopes := start.scopes.declare name ⟨type, definition, .inner⟩ } := by
  obtain ⟨_, _, got, ran⟩ := ran_bind.mp ran
  cases got
  split at ran
  · exact absurd clean (not_clean_of_duplicate ran fresh)
  · rename_i none
    cases ran
    rw [Option.orElse_eq_orElse, Option.orElse_eq_or, Option.or_eq_none_iff,
      Option.map_eq_none_iff] at none
    exact ⟨none, rfl⟩

/-- Storing a value leaves the target of the assignment in its slot. -/
theorem ran_store {statement value : NodeId} {operator : AssignOperator}
    {targetType valueType : Option Ty} {result : Unit}
    (ran : Ran (store environment statement operator value targetType valueType) start result
      final) : Mild start final ∧ ∀ {target : NodeId},
      start.kind? statement = some (.assign operator target value) → target ≠ value →
      ∃ now, final.kind? statement = some (.assign operator target now) := by
  have same : Undeclared start final :=
    undeclared_frame.keeps_store environment _ _ _ _ _ _ _ _ ran
  have still : final.tree = start.tree → Mild start final ∧ ∀ {target : NodeId},
      start.kind? statement = some (.assign operator target value) → target ≠ value →
      ∃ now, final.kind? statement = some (.assign operator target now) := by
    intro unchanged
    refine ⟨⟨same, steady_of_tree unchanged⟩, fun known _ => ⟨value, ?_⟩⟩
    unfold InferenceState.kind?
    rw [unchanged]
    exact known
  unfold store at ran
  split at ran
  · split at ran
    · split at ran
      · obtain ⟨_, -, rfl⟩ := report_adds ran
        exact still rfl
      · split at ran
        · cases ran
          exact still rfl
        · obtain ⟨steady, changed, -⟩ := ran_insert_cast ran
          refine ⟨⟨same, steady⟩, fun {target} known apart => ?_⟩
          obtain ⟨before, after, cast, was, replaced, now, -⟩ := changed (Arena.kind_bound known)
          cases known.symm.trans was
          rw [NodeKind.replace_child_eq _ _ (by simpa [NodeKind.children] using apart)
            (by simp [NodeKind.children])] at replaced
          cases replaced
          rw [NodeKind.map, NodeKind.swap_of_ne apart] at now
          exact ⟨_, now⟩
        · obtain ⟨_, -, rfl⟩ := report_adds ran
          exact still rfl
    · cases ran
      exact still rfl
  · cases ran
    exact still rfl

theorem ran_assigned_type {value : NodeId} {type : Option Ty}
    (ran : Ran (assignedType environment value) start type final) : ∃ found middle,
      Ran (expression environment value) start found middle ∧ Mild middle final := by
  obtain ⟨found, middle, first, ran⟩ := ran_bind.mp ran
  refine ⟨found, middle, first, ?_⟩
  split at ran
  · obtain ⟨_, _, reported, ran⟩ := ran_bind.mp ran
    cases ran
    exact keeps_mild_report _ _ _ _ _ reported
  · cases ran
    exact mild_chain.refl _

theorem ran_predicate {condition : NodeId} {result : Unit}
    (ran : Ran (predicate environment condition) start result final) : ∃ found middle,
      Ran (expression environment condition) start found middle ∧ Mild middle final := by
  obtain ⟨found, middle, first, ran⟩ := ran_bind.mp ran
  refine ⟨found, middle, first, ?_⟩
  split at ran
  · cases ran
    exact mild_chain.refl _
  · split at ran
    · exact keeps_mild_report _ _ _ _ _ ran
    · cases ran
      exact mild_chain.refl _

/-- A type may be stored on one node, and nothing else is changed. -/
structure Stores (node : NodeId) (before after : InferenceState) : Prop extends
    Undeclared before after where
  size : after.size = before.size
  kinds : ∀ id, after.kind? id = before.kind? id
  others : ∀ id, id ≠ node → after.type? id = before.type? id

theorem ran_set_type {node : NodeId} {type : Option Ty} {result : Unit}
    (ran : Ran (setType node type) start result final) :
    Stores node start final ∧ (node.index < start.size → final.type? node = type) := by
  cases ran
  refine ⟨⟨⟨rfl, rfl, List.prefix_refl _⟩, Arena.size_setType _ _ _, fun id =>
    Arena.kind?_setType _ _ _ _, fun id apart => ?_⟩, fun bound => Arena.type_set_type bound _⟩
  exact Arena.type_of_node ((Arena.node_set_type _ _ _ _).trans (if_neg (Ne.symm apart)))

/-- A resolved type is stored, unless an error is reported. -/
theorem ran_resolve_type {written : NodeId} {type : Option Ty}
    (ran : Ran (resolveType environment written) start type final) :
    Stores written start final ∧ (final.Clean → type.isSome) := by
  obtain ⟨_, _, got, ran⟩ := ran_bind.mp ran
  cases got
  split at ran
  · split at ran
    · obtain ⟨_, _, reported, ran⟩ := ran_bind.mp ran
      cases ran
      refine ⟨?_, fun clean => absurd clean (not_clean_of_report reported rfl)⟩
      obtain ⟨_, -, rfl⟩ := report_adds reported
      exact ⟨⟨rfl, rfl, List.prefix_append _ _⟩, rfl, fun _ => rfl, fun _ _ => rfl⟩
    · obtain ⟨_, _, stored, ran⟩ := ran_bind.mp ran
      cases ran
      exact ⟨(ran_set_type stored).1, fun _ => rfl⟩
  · cases ran

theorem keeps_mild_add (kind : NodeKind NodeId) (source : NodeId) : Keeps Mild (add kind source) :=
  fun _ _ _ ran => ⟨undeclared_frame.keeps_add _ _ _ _ _ ran, (ran_add ran).steady⟩

/-- The default of a variable is made of new nodes. -/
theorem keeps_mild_add_default (type : Ty) (source : NodeId) :
    Keeps Mild (addDefault type source) := by
  intro start value final ran
  refine ⟨undeclared_frame.keeps_add_default _ _ _ _ _ ran, ?_⟩
  unfold addDefault at ran
  split at ran
  · exact (ran_add ran).steady
  · obtain ⟨_, first, wrote, ran⟩ := ran_bind.mp ran
    obtain ⟨_, _, added, ran⟩ := ran_bind.mp ran
    obtain ⟨_, _, typed, ran⟩ := ran_bind.mp ran
    obtain ⟨_, _, copied, ran⟩ := ran_bind.mp ran
    cases ran
    have added := ((ran_alloc added).typed typed).1.of_arena (ran_on_spans copied)
    have wrote := ran_add_type_ref wrote
    exact ⟨Nat.le_trans wrote.steady.size added.steady.size, fun id old =>
      (added.steady.types id (Nat.lt_of_lt_of_le old wrote.steady.size)).trans
        (wrote.steady.types id old)⟩
  · exact (ran_add ran).steady

/-- A variable was declared with its written type. -/
structure Declared (written definition : NodeId) (name : String) (type : Option Ty)
    (before after : InferenceState) : Prop where
  grows : before.diagnostics <+: after.diagnostics
  known : type.isSome
  unseen : before.scopes.lookup name = none
  duplicates : after.duplicates = []
  scopes : after.scopes = before.scopes.declare name ⟨type, definition, .inner⟩
  size : after.size = before.size
  typed : definition.index < before.size → after.type? definition = type
  others : ∀ id, id ≠ written → id ≠ definition → after.type? id = before.type? id

theorem declared_of_ran {written definition : NodeId} {name : String} {type : Option Ty}
    {first second : InferenceState} {stored result : Unit}
    (resolving : Ran (resolveType environment written) start type first)
    (storing : Ran (setType definition type) first stored second)
    (defining : Ran (define environment definition name type) second result final)
    (fresh : start.duplicates = []) (clean : final.Clean) :
    Declared written definition name type start final := by
  obtain ⟨resolved, known⟩ := ran_resolve_type resolving
  obtain ⟨stores, typed⟩ := ran_set_type storing
  have same := undeclared_frame.trans resolved.toUndeclared stores.toUndeclared
  obtain ⟨⟨unseen, -⟩, rfl⟩ := ran_define defining (same.duplicates.trans fresh) clean
  rw [same.scopes] at unseen
  refine ⟨same.diagnostics, known (stores.clean clean), unseen, same.duplicates.trans fresh, ?_,
    stores.size.trans resolved.size, fun bound => typed (by rw [resolved.size]; exact bound),
    fun id first second => (stores.others id second).trans (resolved.others id first)⟩
  change second.scopes.declare _ _ = _
  rw [same.scopes]

theorem ran_spell {target : NodeId} {type : Option Ty} {written : Option NodeId}
    (ran : Ran (type.mapM fun type => addTypeRef type target) start written final) :
    Mild start final ∧ ∀ id, id.index < start.size → final.kind? id = start.kind? id := by
  cases type with
  | none =>
      cases ran
      exact ⟨mild_chain.refl _, fun _ _ => rfl⟩
  | some type =>
      rw [Option.mapM_some, map_eq_pure_bind] at ran
      obtain ⟨_, _, ran, done⟩ := ran_bind.mp ran
      cases done
      have adds := ran_add_type_ref ran
      exact ⟨⟨undeclared_frame.keeps_add_type_ref _ _ _ _ _ ran, adds.steady⟩,
        fun id old => (adds.old id old).1⟩

/-- The definition that the first assignment to a name becomes. -/
structure Defined (statement value definition : NodeId) (name : String) (type : Option Ty)
    (before after : InferenceState) : Prop extends Steady before after where
  grows : before.diagnostics <+: after.diagnostics
  new : before.size ≤ definition.index
  assigned : after.kind? statement = some (.assign .assign definition value)
  defines : ∃ written, after.kind? definition = some (.definition written name)
  typed : after.type? definition = type
  duplicates : after.duplicates = before.duplicates
  scopes : after.scopes = before.scopes.declare name ⟨type, definition, .inner⟩

theorem defined_of_ran {statement target value : NodeId} {name : String} {valueType : Option Ty}
    {result : Unit}
    (ran : Ran (implicitDefinition statement target name valueType) start result final)
    (known : start.kind? statement = some (.assign .assign target value)) (apart : target ≠ value) :
    ∃ definition type, Defined statement value definition name type start final := by
  obtain ⟨written, wrote, spelling, ran⟩ := ran_bind.mp ran
  obtain ⟨definition, made, adding, ran⟩ := ran_bind.mp ran
  obtain ⟨_, typed, storing, ran⟩ := ran_bind.mp ran
  obtain ⟨_, moved, moving, ran⟩ := ran_bind.mp ran
  obtain ⟨_, pointed, replacing, ran⟩ := ran_bind.mp ran
  cases ran
  obtain ⟨mild, kept⟩ := ran_spell spelling
  have kept := kept statement (Arena.kind_bound known)
  obtain ⟨adds, type⟩ := (ran_alloc adding).typed storing
  have adds := adds.of_arena (ran_on_spans moving)
  obtain ⟨earlier, later, was, replaced, now, size, types, kinds⟩ := ran_replace_child replacing
  have bound : statement.index < wrote.size := Nat.lt_of_lt_of_le (Arena.kind_bound known) mild.size
  cases was.symm.trans ((adds.old statement bound).1.trans (kept.trans known))
  rw [NodeKind.replace_child_eq _ _ (by simpa [NodeKind.children] using apart)
    (by simp [NodeKind.children])] at replaced
  cases replaced
  rw [NodeKind.map, NodeKind.swap, if_pos rfl, NodeKind.swap_of_ne (Ne.symm apart)] at now
  have differ : definition ≠ statement := by
    rintro rfl
    rw [adds.new] at bound
    exact Nat.lt_irrefl _ bound
  have same := undeclared_frame.trans (undeclared_frame.keeps_on_tree _ _ _ _ adding)
    (undeclared_frame.trans (undeclared_frame.keeps_set_type _ _ _ _ _ storing)
      (undeclared_frame.trans (undeclared_frame.keeps_on_tree _ _ _ _ moving)
        (undeclared_frame.keeps_on_tree _ _ _ _ replacing)))
  refine ⟨definition, valueType.filter fun type => type ≠ .null, ⟨?_, fun id old => ?_⟩,
    mild.diagnostics.trans same.diagnostics, ?_, now, ⟨written, ?_⟩, ?_, ?_, ?_⟩
  · change _ ≤ pointed.size
    rw [size]
    exact Nat.le_trans mild.size adds.steady.size
  · exact (types id).trans ((adds.steady.types id (Nat.lt_of_lt_of_le old mild.size)).trans
      (mild.types id old))
  · rw [adds.new]
    exact mild.size
  · exact (kinds definition differ).trans adds.found
  · refine (types definition).trans (Eq.trans ?_ type)
    unfold InferenceState.type?
    rw [ran_on_spans moving]
  · exact same.duplicates.trans mild.duplicates
  · change pointed.scopes.declare _ _ = _
    rw [same.scopes, mild.scopes]

/-- A returned value is inferred, and its type is not changed afterwards. -/
theorem ran_return {node : NodeId} {value : Option NodeId} {result : Unit}
    (ran : Ran (returnFrom environment node value) start result final) :
    ∀ child ∈ value, ∃ type middle,
      Ran (expression environment child) start type middle ∧ Mild middle final := by
  rintro child ⟨⟩
  obtain ⟨_, middle, inferred, ran⟩ := ran_bind.mp ran
  rw [Option.mapM_some, map_eq_pure_bind] at inferred
  obtain ⟨type, _, inferred, done⟩ := ran_bind.mp inferred
  cases done
  refine ⟨type, middle, inferred, ?_⟩
  obtain ⟨_, _, got, ran⟩ := ran_bind.mp ran
  cases got
  have stored : ∀ {value : NodeId} {found expected : Ty},
      Keeps Mild (returnValue environment node value found expected) := by
    intro value found expected
    unfold returnValue
    split
    · exact mild_chain.keeps_pure _
    · exact keeps_mild_insert_cast _ _ _
    · exact keeps_mild_report _ _
  split at ran
  · cases ran
    exact mild_chain.refl _
  · cases ran
    exact mild_chain.refl _
  · exact keeps_mild_report _ _ _ _ _ ran
  · exact keeps_mild_report _ _ _ _ _ ran
  · split at ran
    · cases ran
      exact mild_chain.refl _
    · exact stored _ _ _ ran

end Steps

end ModuleLang.Inference
