import ModuleLang.Proofs.Typing.Accepting
import ModuleLang.Proofs.Typing.Jumps
import ModuleLang.Proofs.Typing.Judgement
import ModuleLang.Proofs.Typing.Statement

/-!
What inference leaves behind of a statement that holds no others. If no error is
reported, the statement that takes its place is accepted: its parts are, a value that
had to be widened stands in a cast, and what is declared for the statements behind it
is new.
-/

namespace ModuleLang

theorem NodeKind.Alike.evaluated {slot other : Type} {stands : Category → slot → other → Prop}
    {kind : NodeKind slot} {after : NodeKind other} (alike : kind.Alike stands after) :
    after.isEvaluated = kind.isEvaluated := by
  cases alike <;> rfl

theorem NodeKind.Alike.place {slot other : Type} {stands : Category → slot → other → Prop}
    {kind : NodeKind slot} {after : NodeKind other} (alike : kind.Alike stands after) :
    after.isPlace = kind.isPlace := by
  cases alike <;> rfl

namespace Inference

variable {limit : Position} {origin : SourceTree} {environment : Environment}

theorem accepting_expression (constructed : origin.Constructed limit) (bound : Nat) :
    Accepting limit origin environment bound (expression environment) := by
  intro node state type final _ admitted ready ran
  exact ⟨undeclared_frame.keeps_expression environment _ _ _ _ ran,
    approved_of_expression constructed admitted ready ran⟩

theorem infers_expression (constructed : origin.Constructed limit) (bound : Nat) :
    Infers limit origin (fun _ => False) bound (expression environment) :=
  fun _ _ _ admitted sound untouched => yields_expression _ constructed admitted sound untouched

/-- A parsed node that was worked on, with what stands in its slots now. -/
theorem Worked.image {results : Option Ty → Prop} {nodes : List NodeId} {id : NodeId}
    {kind : NodeKind NodeId} {before after : InferenceState}
    (work : Worked limit origin results nodes before after) (inside : Below origin nodes id)
    (known : origin.arena.kind? id = some kind) : ∃ image, after.kind? id = some image ∧
      kind.Alike (SourceTree.Stands origin after.tree) image := by
  rcases work.settled id (Or.inl inside) with ⟨image, fine, -⟩
  refine ⟨image, fine.found, ?_⟩
  cases fine.traced with
  | parsed was alike _ =>
      cases known.symm.trans was
      exact alike
  | added new _ => exact absurd (Arena.kind_bound known) (Nat.not_lt.mpr new)

/-- A statement that was checked without an error is accepted, for the names and the
loops around it. -/
def Approves (environment : Environment) (now : NodeId) (before after : InferenceState) : Prop :=
  ∃ reports, after.diagnostics = before.diagnostics ++ reports ∧
    Complies environment before.result after.tree before.loopDepth before.scopes now after.scopes
      reports

section Statements

variable {node now : NodeId} {kind : NodeKind NodeId} {before after : InferenceState}

/-- An expression that stands alone. -/
theorem approves_evaluated (constructed : origin.Constructed limit)
    (known : origin.arena.kind? node = some kind) (alone : kind.isEvaluated = true)
    (ready : Ready limit origin node before) (ran : Ran (do
      let _ ← expression environment node
      return node) before now after) (clean : after.Clean) :
    Approves environment now before after := by
  rcases ran_bind.mp ran with ⟨_, _, evaluated, ran⟩
  cases ran
  have admitted : origin.arena.Admitted .expression node := by
    refine ⟨kind, known, ?_⟩
    cases kind <;> first | rfl | cases alone
  have same := undeclared_frame.keeps_expression environment _ _ _ _ evaluated
  rcases (yields_expression (fun _ => False) constructed admitted ready.sound
    ready.untouched).of_ran evaluated with ⟨work, -⟩
  rcases work.image (below_singleton.mpr .refl) known with ⟨image, found, alike⟩
  rcases approved_of_expression constructed admitted ready evaluated clean with
    ⟨reports, reported, accepted⟩
  refine ⟨reports, reported, ?_⟩
  rw [same.scopes]
  exact .evaluate found (alike.evaluated.trans alone) accepted

theorem approves_jump {keyword : Keyword} (known : origin.arena.kind? node = some kind)
    (isJump : kind = .breakLoop ∨ kind = .continueLoop) (ready : Ready limit origin node before)
    (ran : Ran (do
      Inference.jump environment node keyword
      return node) before now after) (clean : after.Clean) :
    Approves environment now before after := by
  rcases ran_jump ran clean with ⟨rfl, rfl, inside⟩
  have found : after.kind? now = some kind := ready.kind.trans known
  refine ⟨[], (List.append_nil _).symm, .jump ?_ inside⟩
  rcases isJump with rfl | rfl
  · exact Or.inl found
  · exact Or.inr found

/-- The value that a return has, once it fits the result of its function. -/
theorem adjusted_return {value : NodeId} {result : Unit}
    (constructed : origin.Constructed limit)
    (known : origin.arena.kind? node = some (.returnFrom (some value)))
    (ready : Ready limit origin node before)
    (ran : Ran (returnFrom environment node (some value)) before result after)
    (clean : after.Clean) : ∃ state change, Adjusted environment before.scopes node
      (.returnFrom (some value)) [value] value before state after change := by
  rcases ran_bind.mp ran with ⟨found, middle, inferred, ran⟩
  rw [Option.mapM_some, map_eq_pure_bind] at inferred
  rcases ran_bind.mp inferred with ⟨type, _, inferred, done⟩
  cases done
  have begun : Approving limit origin environment before.scopes node (.returnFrom (some value)) []
      [value] before before := .begin constructed known ready
  rcases begun.visit (accepting_expression constructed _) (infers_expression constructed _)
    (by simp [NodeKind.slots]) inferred with ⟨approving, typed, -⟩
  rcases ran_bind.mp ran with ⟨_, _, got, ran⟩
  cases got
  have stays : middle.Clean → ∃ state change, Adjusted environment before.scopes node
      (.returnFrom (some value)) [value] value before state middle change :=
    fun clean => ⟨middle, id, approving.untouched clean value⟩
  split at ran
  · cases ran
    exact stays clean
  · cases ran
    exact stays clean
  · exact absurd clean (not_clean_of_report ran rfl)
  · exact absurd clean (not_clean_of_report ran rfl)
  · rename_i expected other _ _ same
    cases same
    split at ran
    · cases ran
      exact stays clean
    · rename_i found known
      have known : type = some found := known
      unfold returnValue at ran
      split at ran
      · cases ran
        exact stays clean
      · rename_i widens
        rcases approving.widen clean (by simp [NodeKind.slots]) (typed.trans known)
          (widens_of_assignability widens) ran with ⟨change, adjusted, -⟩
        exact ⟨middle, change, adjusted⟩
      · exact absurd clean (not_clean_of_report ran rfl)

theorem approves_return {value : Option NodeId} (constructed : origin.Constructed limit)
    (known : origin.arena.kind? node = some (.returnFrom value))
    (ready : Ready limit origin node before) (ran : Ran (do
      Inference.returnFrom environment node value
      return node) before now after) (clean : after.Clean) :
    Approves environment now before after := by
  rcases ran_bind.mp ran with ⟨_, _, returned, ran⟩
  cases ran
  have same := undeclared_frame.keeps_return environment _ _ _ _ _ returned
  have visits : Visits limit origin (· = before.result) node (.returnFrom value) [] value.toList
      before before := .begin constructed known ready.sound ready.untouched
  have judged := (judged_return visits fun _ same => same).of_ran returned
  have work := worked_of_judged (judged (after.type? node))
  rcases work.settled node (Visits.child_covered (by simp)) with ⟨image, fine, -⟩
  have rule := fine.obeys clean
  have done : ∀ {given reports}, after.kind? node = some (.returnFrom given) →
      after.diagnostics = before.diagnostics ++ reports →
      Accepted environment before.scopes after.tree given.toList reports →
      Approves environment node before after := by
    intro given reports found reported accepted
    cases found.symm.trans fine.found
    refine ⟨reports, reported, ?_⟩
    rw [same.scopes]
    refine .returns found accepted ?_
    cases given <;> exact rule
  cases value with
  | none =>
      have quiet : after = before := by
        rcases ran_bind.mp returned with ⟨_, _, skipped, returned⟩
        cases skipped
        rcases ran_bind.mp returned with ⟨_, _, got, returned⟩
        cases got
        split at returned
        · cases returned
          rfl
        · cases returned
          rfl
        · exact absurd clean (not_clean_of_report returned rfl)
        · rename_i same
          cases same
        · rename_i same
          cases same
      subst quiet
      exact done (ready.kind.trans known) (List.append_nil _).symm .nil
  | some value =>
      rcases adjusted_return constructed known ready returned clean with ⟨_, change, adjusted⟩
      rcases adjusted.approved with ⟨reports, reported, accepted⟩
      exact done adjusted.found reported accepted

end Statements

section Assignments

variable {node now target value : NodeId} {operator : AssignOperator} {done : List NodeId}
  {scopes : Scopes} {before state final : InferenceState}

theorem target_ne_value {rest : List NodeId}
    (visits : Visits limit origin (fun _ => False) node (.assign operator target value) done rest
      before state) : target ≠ value := by
  simpa [NodeKind.children] using visits.distinct

/-- A value that was assigned without an error is accepted, and is no call without a
result. -/
theorem Approving.visit_assigned {type : Option Ty} {rest : List NodeId} {kind : NodeKind NodeId}
    (approving : Approving limit origin environment scopes node kind done (value :: rest) before
      state) (slot : (Category.expression, value) ∈ kind.slots)
    (ran : Ran (assignedType environment value) state type final) (clean : final.Clean) :
    Approving limit origin environment scopes node kind (done ++ [value]) rest before final ∧
      final.type? value = type ∧ type ≠ some .void := by
  have constructed := approving.visits.constructed
  rcases ran_bind.mp ran with ⟨found, visited, inferred, ran⟩
  rcases approving.visit (accepting_expression constructed _) (infers_expression constructed _)
    slot inferred with ⟨later, typed, -⟩
  split at ran
  · rcases ran_bind.mp ran with ⟨_, _, reported, ran⟩
    cases ran
    exact absurd clean (not_clean_of_report reported rfl)
  · rename_i solid
    cases ran
    exact ⟨later, typed, solid⟩

/-- A value that was stored without an error fits as it is, or stands in a cast. -/
theorem adjusted_store {targetType valueType : Option Ty} {result : Unit}
    (visits : Visits limit origin (fun _ => False) node (.assign operator target value) done []
      before state)
    (approved : state.Clean → Approved environment scopes done before state)
    (valueTyped : state.type? value = valueType) (solid : valueType ≠ some .void)
    (ran : Ran (store environment node operator value targetType valueType) state result final)
    (clean : final.Clean) : ∃ change, Adjusted environment scopes node
      (.assign operator target value) done value before state final change ∧
      final.type? (change value) ≠ some .void ∧ final.scopes = state.scopes := by
  have stays : state.Clean → ∃ change, Adjusted environment scopes node
      (.assign operator target value) done value before state state change ∧
      state.type? (change value) ≠ some .void ∧ state.scopes = state.scopes :=
    fun clean => ⟨id, visits.unadjusted (approved clean) value,
      fun void => solid (valueTyped.symm.trans void), rfl⟩
  unfold store at ran
  split at ran
  · split at ran
    · split at ran
      · exact absurd clean (not_clean_of_report ran rfl)
      · split at ran
        · cases ran
          exact stays clean
        · rename_i widens
          have widens := widens_of_assignability widens
          rcases visits.widen approved clean (by simp [NodeKind.slots]) valueTyped widens ran with
            ⟨change, adjusted, typed, -, same⟩
          refine ⟨change, adjusted, ?_, same⟩
          rw [typed]
          rintro ⟨⟩
          unfold Ty.widensTo Ty.wider at widens
          grind
        · exact absurd clean (not_clean_of_report ran (level_of_mismatch _ _ _))
    · cases ran
      exact stays clean
  · cases ran
    exact stays clean

section Targets

variable {kind : NodeKind NodeId} {name : String} {valueType : Option Ty} {result : Unit}

/-- The children of a node may be visited in another order. -/
theorem Approving.reorder {rest others : List NodeId}
    (approving : Approving limit origin environment scopes node kind done rest before state)
    (same : rest.Perm others) :
    Approving limit origin environment scopes node kind done others before state :=
  ⟨approving.visits.reorder same, approving.visible, approving.approved⟩

/-- An assignment whose value was stored without an error. -/
structure Stored (environment : Environment) (scopes : Scopes) (node : NodeId)
    (operator : AssignOperator) (target right : NodeId) (before state after : InferenceState)
    (reports : List Diagnostic) : Prop where
  found : after.kind? node = some (.assign operator target right)
  reported : after.diagnostics = before.diagnostics ++ reports
  parts : Accepted environment scopes after.tree [right, target] reports
  solid : after.type? right ≠ some .void
  rule : ∀ results, (NodeKind.assign operator target right).Obeys after.type? none results
  scopes : after.scopes = state.scopes
  typed : after.type? target = state.type? target

theorem stored_of_ran {targetType : Option Ty}
    (taken : Taken limit origin (fun _ => False) node before final node)
    (visits : Visits limit origin (fun _ => False) node (.assign operator target value)
      [value, target] [] before state)
    (approved : state.Clean → Approved environment scopes [value, target] before state)
    (valueTyped : state.type? value = valueType) (solid : valueType ≠ some .void)
    (ran : Ran (store environment node operator value targetType valueType) state result final)
    (clean : final.Clean) : ∃ right reports,
      Stored environment scopes node operator target right before state final reports := by
  rcases adjusted_store visits approved valueTyped solid ran clean with
    ⟨change, adjusted, solid, same⟩
  rcases adjusted.others target (by simp [NodeKind.children]) (target_ne_value visits) with
    ⟨stays, typed⟩
  have found : final.kind? node = some (.assign operator (change target) (change value)) :=
    adjusted.found
  rcases adjusted.approved with ⟨reports, reported, accepted⟩
  rw [List.map_cons, List.map_singleton, stays] at accepted
  rw [stays] at found
  rcases taken.work.settled node (Visits.child_covered (by simp)) with ⟨image, fine, -⟩
  cases found.symm.trans fine.found
  exact ⟨change value, reports, found, reported, accepted, solid, fun _ => fine.obeys clean, same,
    typed⟩

/-- The target of an assignment that was worked on. -/
theorem target_image (taken : Taken limit origin (fun _ => False) node before final node)
    (known : origin.arena.kind? node = some (.assign operator target value))
    (was : origin.arena.kind? target = some kind) : ∃ image, final.kind? target = some image ∧
      kind.Alike (SourceTree.Stands origin final.tree) image := by
  apply taken.work.image _ was
  apply below_singleton.mpr
  apply Arena.Reachable.of_child
  rw [Arena.children_of_kind known]
  simp [NodeKind.children]

/-- Once the value and the target are accepted, the assignment is. -/
theorem approves_placed {targetType : Option Ty}
    (was : origin.arena.kind? target = some kind) (place : kind.isPlace = true)
    (taken : Taken limit origin (fun _ => False) node before final node)
    (approving : Approving limit origin environment before.scopes node
      (.assign operator target value) [value, target] [] before state)
    (valueTyped : state.type? value = valueType) (solid : valueType ≠ some .void)
    (ran : Ran (store environment node operator value targetType valueType) state result final)
    (clean : final.Clean) : Approves environment node before final := by
  have visits := approving.visits
  rcases stored_of_ran taken visits approving.approved valueTyped solid ran clean with
    ⟨right, reports, stored⟩
  rcases target_image taken visits.found was with ⟨image, there, alike⟩
  refine ⟨reports, stored.reported, ?_⟩
  rw [stored.scopes, approving.visible]
  exact .assign stored.found stored.parts stored.solid (stored.rule _) there
    (alike.place.trans place)

/-- The target of an assignment whose value was visited is still as it was parsed. -/
theorem Approving.target_ready {rest : List NodeId}
    (approving : Approving limit origin environment scopes node kind done (target :: rest) before
      state) : Ready limit origin target state :=
  approving.visits.next_ready

/-- An assignment to a part of something. -/
theorem approves_access {access : Unit}
    (was : origin.arena.kind? target = some kind) (place : kind.isPlace = true)
    (taken : Taken limit origin (fun _ => False) node before final node)
    (approving : Approving limit origin environment before.scopes node
      (.assign operator target value) [value] [target] before state)
    (valueTyped : state.type? value = valueType) (solid : valueType ≠ some .void)
    (ran : Ran (do
      let targetType ← expression environment target
      store environment node operator value targetType valueType) state access final)
    (clean : final.Clean) : Approves environment node before final := by
  have constructed := approving.visits.constructed
  rcases ran_bind.mp ran with ⟨targetType, middle, inferred, ran⟩
  have admitted : origin.arena.Admitted .expression target := by
    refine ⟨kind, was, ?_⟩
    cases kind <;> first | rfl | cases place
  rcases (yields_expression (fun _ => False) constructed admitted approving.visits.sound
    approving.visits.next_untouched).of_ran inferred with ⟨work, -⟩
  have same := undeclared_frame.keeps_expression environment _ _ _ _ inferred
  have whole := approving.next work same fun clean => approving.visible ▸
    approved_of_expression constructed admitted approving.target_ready inferred clean
  have kept := approving.visits.types_kept work value (by simp)
  exact approves_placed was place taken whole (kept.trans valueTyped) solid ran clean

/-- An assignment to a name that is visible. -/
theorem approves_visible {binding : Binding} {stored : Unit} {named : InferenceState}
    (was : origin.arena.kind? target = some (.member name))
    (taken : Taken limit origin (fun _ => False) node before final node)
    (approving : Approving limit origin environment before.scopes node
      (.assign operator target value) [value] [target] before state)
    (valueTyped : state.type? value = valueType) (solid : valueType ≠ some .void)
    (seen : state.scopes.lookup name = some binding)
    (storing : Ran (setType target binding.type) state stored named)
    (ran : Ran (store environment node operator value binding.type valueType) named result final)
    (clean : final.Clean) : Approves environment node before final := by
  have ready := approving.target_ready
  have constructed := approving.visits.constructed
  rcases (yields_name_typed (fun _ => False) constructed was ready.sound ready.untouched
    binding.type).of_ran storing with ⟨work, typed⟩
  have stores := (ran_set_type storing).1
  have whole := approving.next work stores.toUndeclared fun _ => by
    have found : named.kind? target = some (.member name) :=
      (stores.kinds target).trans (ready.kind.trans was)
    have accepted : Accepted environment before.scopes named.tree [target] ([] ++ []) := by
      apply Accepted.one found .nil
      · exact ⟨binding, approving.visible ▸ seen, typed⟩
      · rfl
    refine ⟨[], ?_, accepted⟩
    cases storing
    exact (List.append_nil _).symm
  have kept := approving.visits.types_kept work value (by simp)
  exact approves_placed was rfl taken whole (kept.trans valueTyped) solid ran clean

/-- What is accepted stays so while the scopes change. -/
theorem Approved.of_same_tree {names : Scopes} {nodes : List NodeId} {after : InferenceState}
    (approved : Approved environment names nodes before state) (tree : after.tree = state.tree)
    (quiet : after.diagnostics = state.diagnostics) :
    Approved environment names nodes before after := by
  unfold Approved
  rw [tree, quiet]
  exact approved

/-- A variable was declared with its written type, and its definition is accepted. -/
structure Introduced (limit : Position) (origin : SourceTree) (environment : Environment)
    (definition : NodeId) (name : String) (type : Option Ty) (before after : InferenceState) :
    Prop where
  work : Passed limit origin [definition] before after
  approved : Approved environment before.scopes [definition] before after
  typed : after.type? definition = type
  solid : type ≠ some .void
  readable : ∀ found, type = some found → environment.host.ReadsBack found
  scopes : after.scopes = before.scopes.declare name ⟨type, definition, .inner⟩
  unseen : before.scopes.lookup name = none
  free : before.scopes.nested name = none

theorem introduced_of_ran {written definition : NodeId} {type : Option Ty}
    {first second : InferenceState} {stored : Unit} (constructed : origin.Constructed limit)
    (was : origin.arena.kind? definition = some (.definition (some written) name))
    (ready : Ready limit origin definition state)
    (resolving : Ran (resolveType environment written) state type first)
    (storing : Ran (setType definition type) first stored second)
    (defining : Ran (define environment definition name type) second result final)
    (fresh : state.duplicates = []) (clean : final.Clean) :
    Introduced limit origin environment definition name type state final := by
  have resolved := (ran_resolve_type resolving).1
  have stores := (ran_set_type storing).1
  have same := undeclared_frame.trans resolved.toUndeclared stores.toUndeclared
  have begun : Approving limit origin environment state.scopes definition
      (.definition (some written) name) [] [written] state state := .begin constructed was ready
  rcases begun.visit_type (by simp [NodeKind.slots]) resolving with ⟨approving, typed⟩
  rcases (yields_visit_type begun.visits (by simp [NodeKind.slots])).of_ran resolving with
    ⟨-, known, -, named⟩
  have judged : Judged limit origin (fun _ => False) definition
      (.definition (some written) name) type state first :=
    judged_plain approving.visits fun _ => trivial
  rcases (yields_typed judged).of_ran storing with ⟨work, own⟩
  have spanned : (second.span? definition).isSome := by
    rw [work.spans definition (by simp)]
    exact (constructed.recorded definition).mpr (Arena.kind_bound was)
  have noted := (yields_define work.sound spanned).of_ran defining
  rcases ran_define defining (same.duplicates.trans fresh) clean with ⟨⟨unseen, free⟩, rfl⟩
  have early : first.Clean := stores.clean clean
  have concluded : Concluded environment state.scopes definition type state first :=
    approving.conclude early rfl fun _ _ => (typed early).symm
  rw [same.scopes] at unseen free
  have readable : ∀ found, type = some found → environment.host.ReadsBack found := by
    rintro found rfl
    have read := (named early).symm.trans (typed early)
    unfold Arena.written? at read
    split at read
    · exact Host.reads_back_of_written read
    · cases read
  refine ⟨work.noted noted, (concluded.typed judged storing).of_same_tree rfl rfl, own,
    fun void => (known _ void).2 rfl, readable, ?_, unseen, free⟩
  change second.scopes.declare _ _ = _
  rw [same.scopes]

/-- `type name := value`. -/
theorem approves_definition {written : NodeId} {type : Option Ty} {defined : InferenceState}
    (was : origin.arena.kind? target = some (.definition (some written) name))
    (taken : Taken limit origin (fun _ => False) node before final node)
    (approving : Approving limit origin environment before.scopes node
      (.assign operator target value) [value] [target] before state)
    (valueTyped : state.type? value = valueType) (solid : valueType ≠ some .void)
    (introduced : Introduced limit origin environment target name type state defined)
    (ran : Ran (store environment node operator value type valueType) defined result final)
    (clean : final.Clean) : Approves environment node before final := by
  have visits := approving.visits.next introduced.work
  have constructed := visits.constructed
  have plain : operator = .assign := by
    rcases constructed.admitted visits.found (operator.side, target)
      (by simp [NodeKind.slots]) with ⟨kind, same, admits⟩
    cases was.symm.trans same
    cases operator with
    | assign => rfl
    | _ => cases admits
  subst plain
  have approved : defined.Clean → Approved environment before.scopes [value, target] before
      defined := by
    intro _
    have early : state.Clean := introduced.work.leaves.clean ‹_›
    exact (approving.approved early).append (approving.visible ▸ introduced.approved)
      fun _ => approving.kept introduced.work
  have kept := approving.visits.types_kept introduced.work value (by simp)
  rcases stored_of_ran taken visits approved (kept.trans valueTyped) solid ran clean with
    ⟨right, reports, stored⟩
  rcases target_image taken visits.found was with ⟨image, defines, alike⟩
  refine ⟨reports, stored.reported, ?_⟩
  rw [stored.scopes, introduced.scopes, ← introduced.typed, ← stored.typed, approving.visible]
  cases alike with
  | definition only =>
      cases only with
      | some stands =>
          exact .define stored.found stored.parts stored.solid (stored.rule _) defines
            (approving.visible ▸ introduced.unseen) (approving.visible ▸ introduced.free)

/-- The target of an assignment is not covered by its value. -/
theorem Visits.target_uncovered
    (visits : Visits limit origin (fun _ => False) node (.assign operator target value) [value]
      [target] before state) : ¬ Covered origin [value] before state target := by
  rintro (below | ⟨lower, -⟩)
  · exact visits.next_apart below (below_singleton.mpr .refl)
  · have bound := visits.child_bound (show target ∈ [value] ++ [target] by simp)
    exact Nat.not_lt.mpr (Nat.le_trans visits.start.size lower) bound

section Defined

variable {span : Span}

/-- The value of an assignment is still accepted when its target has become a
definition. -/
theorem Accepted.behind_defined {middle : InferenceState} {reports : List Diagnostic}
    (accepted : Accepted environment scopes state.tree [value] reports)
    (visits : Visits limit origin (fun _ => False) node (.assign .assign target value) [value]
      [target] before state) (grows : Leaves (fun _ => False) state middle)
    (written : Option NodeId) (name : String) (type : Option Ty) (span : Span) :
    Accepted environment scopes (defined middle node target value written name type span).tree
      [value] reports ∧
      (defined middle node target value written name type span).tree.arena.type? value =
        state.type? value := by
  have covered : Covered origin [value] before state value := Visits.child_covered (by simp)
  have leaves : Leaves (fun id => id = node ∨ id = target) state
      (defined middle node target value written name type span) :=
    (grows.weaken fun _ => False.elim).trans leaves_defined fun _ inside _ => inside
  have apart : ∀ id, Covered origin [value] before state id → ¬ (id = node ∨ id = target) := by
    rintro id inside (rfl | rfl)
    · exact visits.node_uncovered inside
    · exact visits.target_uncovered inside
  refine ⟨accepted.later visits.work.settled (by simpa using covered) leaves apart, ?_⟩
  exact Arena.type_of_node
    (leaves.node value (visits.work.settled.bounded covered) (apart value covered))

/-- Nothing tells the type of the variable that is defined. -/
theorem approves_guess
    (approving : Approving limit origin environment before.scopes node
      (.assign .assign target value) [value] [target] before state)
    (empty : IfKnown (state.type? value) (· = .null)) (clean : state.Clean) :
    Approves environment node before (defined state node target value none name none span) := by
  have visits := approving.visits
  have old : node.index < state.size :=
    Nat.lt_of_lt_of_le (Arena.kind_bound visits.found) visits.sound.size
  rcases approving.approved clean with ⟨reports, reported, accepted⟩
  have kept := accepted.behind_defined visits (.refl _ _) none name none span
  have new : (defined state node target value none name none span).tree.arena.node? ⟨state.size⟩ =
      some ⟨.definition none name, none⟩ := node_defined_of_new old
  refine ⟨reports, reported, ?_⟩
  change Complies environment before.result _ before.loopDepth before.scopes node
    (state.scopes.declare name ⟨none, ⟨state.size⟩, .inner⟩) reports
  rw [approving.visible]
  refine .guess (kind_defined old) kept.1 ?_ ?_ ?_
  · rw [kept.2]
    exact empty
  · unfold Arena.kind?
    rw [new]
    rfl
  · unfold Arena.type?
    rw [new]
    rfl

/-- The variable that is defined has the type of its value. -/
theorem approves_typed {type : Ty}
    (approving : Approving limit origin environment before.scopes node
      (.assign .assign target value) [value] [target] before state)
    (typed : state.type? value = some type) (empty : type ≠ .null) (solid : type ≠ .void)
    (place : state.span? target = some span) (unseen : before.scopes.lookup name = none)
    (free : before.scopes.nested name = none) (clean : state.Clean) :
    Approves environment node before (defined (state.spelled type span) node target value
      (some ⟨state.size⟩) name (some type) span) := by
  have visits := approving.visits
  have rewrites : Rewrites limit origin (fun _ => False) (fun _ => False)
      (Covered origin [value] before state) state (state.spelled type span) :=
    rewrites_leaf visits.sound visits.work.settled (visits.sound.placed place).2 _
      (fun _ _ => .typeRef _ _) rfl fun _ _ => trivial
  have middle : (state.spelled type span).size = state.size + 1 := InferenceState.size_grown
  have old : node.index < state.size :=
    Nat.lt_of_lt_of_le (Arena.kind_bound visits.found) visits.sound.size
  have later : node.index < (state.spelled type span).size := by
    rw [middle]
    exact Nat.lt_succ_of_lt old
  rcases approving.approved clean with ⟨reports, reported, accepted⟩
  have kept := accepted.behind_defined visits rewrites.leaves (some ⟨state.size⟩) name (some type)
    span
  have spells : (defined (state.spelled type span) node target value (some ⟨state.size⟩) name
      (some type) span).tree.arena.Spells type ⟨state.size⟩ := by
    apply Arena.spells_of_node (node_defined_of_old ?_ ?_) (InferenceState.spells_spelled type)
    · rw [middle]
      exact Nat.lt_succ_self _
    · rintro rfl
      exact Nat.lt_irrefl _ old
  have new : (defined (state.spelled type span) node target value (some ⟨state.size⟩) name
      (some type) span).tree.arena.node? ⟨(state.spelled type span).size⟩ =
      some ⟨.definition (some ⟨state.size⟩) name, some type⟩ := node_defined_of_new later
  have found : (defined (state.spelled type span) node target value (some ⟨state.size⟩) name
      (some type) span).kind? node =
      some (.assign .assign ⟨(state.spelled type span).size⟩ value) := kind_defined later
  have shown : (defined (state.spelled type span) node target value (some ⟨state.size⟩) name
      (some type) span).scopes = before.scopes.declare name
      ⟨some type, ⟨(state.spelled type span).size⟩, .inner⟩ := by
    rw [← approving.visible]
    rfl
  change Approves environment node before _
  refine ⟨reports, reported, ?_⟩
  rw [shown]
  generalize defined (state.spelled type span) node target value (some ⟨state.size⟩) name
    (some type) span = final at kept spells new found
  have defines : final.tree.arena.kind? ⟨(state.spelled type span).size⟩ =
      some (.definition (some ⟨state.size⟩) name) := by
    unfold Arena.kind?
    rw [new]
    rfl
  have own : final.tree.arena.type? ⟨(state.spelled type span).size⟩ = some type := by
    unfold Arena.type?
    rw [new]
    rfl
  have held : final.tree.arena.type? value = some type := kept.2.trans typed
  exact .introduce found kept.1 held empty solid defines own spells unseen free

/-- The first assignment to a name. -/
theorem approves_implicit
    (approving : Approving limit origin environment before.scopes node
      (.assign .assign target value) [value] [target] before state)
    (valueTyped : state.type? value = valueType) (solid : valueType ≠ some .void)
    (unseen : state.scopes.lookup name = none) (free : state.scopes.nested name = none)
    (ran : Ran (implicitDefinition node target name valueType) state result final)
    (clean : state.Clean) : Approves environment node before final := by
  have visits := approving.visits
  have apart := target_ne_value visits
  have found := visits.node_same.1
  have spanned : (state.span? target).isSome := by
    rw [visits.next_untouched.span target (below_singleton.mpr .refl)]
    exact (visits.constructed.recorded target).mpr (visits.child_bound (by simp))
  rcases Option.isSome_iff_exists.mp spanned with ⟨span, place⟩
  rw [approving.visible] at unseen free
  suffices Yields (implicitDefinition node target name valueType) state fun _ final =>
      Approves environment node before final from this.of_ran ran
  unfold implicitDefinition
  rw [yields_bind]
  cases kept : valueType.filter fun type => type ≠ .null with
  | none =>
      rw [Option.mapM_none, yields_pure]
      refine yields_defined visits.sound found apart place (approves_guess approving ?_ clean)
      rw [valueTyped]
      cases valueType with
      | none => exact if_known_none _
      | some type => simpa [IfKnown, Option.filter_eq_none_iff] using kept
  | some type =>
      rcases Option.filter_eq_some_iff.mp kept with ⟨rfl, empty⟩
      rw [Option.mapM_some, yields_map]
      refine yields_add_type_ref visits.sound place ?_
      have rewrites : Rewrites limit origin (fun _ => False) (fun _ => False)
          (Covered origin [value] before state) state (state.spelled type span) :=
        rewrites_leaf visits.sound visits.work.settled (visits.sound.placed place).2 _
          (fun _ _ => .typeRef _ _) rfl fun _ _ => trivial
      have still : (state.spelled type span).span? target = some span := by
        rw [rewrites.spans target (visits.sound.placed place).1]
        exact place
      have same : (state.spelled type span).kind? node = some (.assign .assign target value) :=
        (Arena.kind_of_node (rewrites.leaves.node node (Arena.kind_bound found) id)).trans found
      refine yields_defined rewrites.sound same apart still ?_
      exact approves_typed approving valueTyped (by simpa using empty)
        (fun same => solid (congrArg some same)) place unseen free clean

end Defined

/-- A name on the left: it is visible, or it becomes a definition. -/
theorem approves_name
    (was : origin.arena.kind? target = some (.member name))
    (taken : Taken limit origin (fun _ => False) node before final node)
    (approving : Approving limit origin environment before.scopes node
      (.assign operator target value) [value] [target] before state)
    (valueTyped : state.type? value = valueType) (solid : valueType ≠ some .void)
    (fresh : state.duplicates = [])
    (named : Ran (nameAssignment environment node operator target name value valueType) state result
      final) (clean : final.Clean) : Approves environment node before final := by
  rcases ran_bind.mp named with ⟨_, _, got, ran⟩
  cases got
  split at ran
  · rename_i binding seen
    rcases ran_bind.mp ran with ⟨_, _, storing, ran⟩
    exact approves_visible was taken approving valueTyped solid seen storing ran clean
  · rename_i unseen
    split at ran
    · exact absurd clean (not_clean_of_report ran rfl)
    · rename_i plain
      have plain : operator = .assign := not_not.mp plain
      subst plain
      split at ran
      · -- The name was declared in a nested body before, which is reported.
        rcases ran_bind.mp ran with ⟨_, _, reported, ran⟩
        rcases ran_bind.mp ran with ⟨_, _, stored, ran⟩
        cases ran
        exact absurd ((ran_set_type stored).1.clean clean) (not_clean_of_duplicate reported fresh)
      · rename_i free
        have grows := grows_frame.keeps_implicit_definition _ _ _ _ _ _ _ ran
        exact approves_implicit approving valueTyped solid unseen free ran
          (clean_of_grown grows clean)

end Targets

theorem approves_assignment (constructed : origin.Constructed limit)
    (known : origin.arena.kind? node = some (.assign operator target value))
    (ready : Ready limit origin node before) (fresh : before.duplicates = [])
    (taken : Taken limit origin (fun _ => False) node before final now)
    (ran : Ran (do
      Inference.assignment environment node operator target value
      return node) before now final) (clean : final.Clean) :
    Approves environment now before final := by
  rcases ran_bind.mp ran with ⟨_, _, assigned, ran⟩
  cases ran
  rcases ran_bind.mp assigned with ⟨valueType, valued, first, later⟩
  have same := undeclared_frame.keeps_assigned_type environment _ _ _ _ first
  have fresh : valued.duplicates = [] := same.duplicates.trans fresh
  have slot : (Category.expression, value) ∈ (NodeKind.assign operator target value).slots := by
    simp [NodeKind.slots]
  have begun : Approving limit origin environment before.scopes node
      (.assign operator target value) [] [value, target] before before :=
    (Approving.begin constructed known ready).reorder (.swap _ _ _)
  rcases (yields_assigned_type begun.visits slot).of_ran first with ⟨visits, -⟩
  have visited : valued.Clean → Approving limit origin environment before.scopes node
      (.assign operator target value) [value] [target] before valued ∧
      valued.type? value = valueType ∧ valueType ≠ some .void := begun.visit_assigned slot first
  rcases constructed.admitted known (operator.side, target) (by simp [NodeKind.slots]) with
    ⟨kind, was, admits⟩
  have isTarget := AssignOperator.is_target_of_side admits
  have found : valued.tree.arena.kind? target = some kind :=
    (visits.next_untouched.kind target (below_singleton.mpr .refl)).trans was
  rcases ran_bind.mp later with ⟨_, _, got, stored⟩
  cases got
  rw [found] at stored
  -- A target that is a part of something is an expression.
  have accessed : kind.isPlace = true → Ran (do
      let targetType ← expression environment target
      store environment node operator value targetType valueType) valued ⟨⟩ final →
      Approves environment node before final := by
    intro place ran
    rcases ran_bind.mp ran with ⟨_, middle, inferred, storing⟩
    have inner := undeclared_frame.keeps_expression environment _ _ _ _ inferred
    rcases visited (inner.clean ((ran_store storing).1.clean clean)) with ⟨approving, typed, solid⟩
    exact approves_access was place taken approving typed solid ran clean
  cases kind with
  | definition written name =>
      cases written with
      | none => cases isTarget
      | some written =>
          rcases ran_bind.mp stored with ⟨type, _, resolving, stored⟩
          rcases ran_bind.mp stored with ⟨_, _, storing, stored⟩
          rcases ran_bind.mp stored with ⟨_, defined, defining, stored⟩
          have settled := (ran_store stored).1.clean clean
          have declared := declared_of_ran resolving storing defining fresh settled
          rcases visited (clean_of_grown declared.grows settled) with ⟨approving, typed, solid⟩
          have introduced := introduced_of_ran constructed was approving.target_ready resolving
            storing defining fresh settled
          exact approves_definition was taken approving typed solid introduced stored clean
  | member name =>
      have grows := grows_frame.keeps_name_assignment environment _ _ _ _ _ _ _ _ _ stored
      rcases visited (clean_of_grown grows clean) with ⟨approving, typed, solid⟩
      exact approves_name was taken approving typed solid fresh stored clean
  | memberAccess owner name => exact accessed rfl stored
  | indexAccess owner index => exact accessed rfl stored
  | _ => cases isTarget

end Assignments

section Defaults

variable {node now : NodeId} {names : Scopes} {before state after : InferenceState} {type : Ty}
  {span : Span}

/-- A value that was added for a variable is accepted, whatever is visible. -/
structure Defaulted (environment : Environment) (names : Scopes) (before after : InferenceState)
    (value : NodeId) : Prop where
  quiet : after.diagnostics = before.diagnostics
  accepted : Accepted environment names after.tree [value] []
  solid : after.type? value ≠ some .void

theorem defaulted_literal (names : Scopes) (literal : Literal) (span : Span) :
    Defaulted environment names state
      (state.grown (.literal literal) (some literal.type) span) ⟨state.size⟩ where
  quiet := rfl
  accepted := by
    have whole : Accepted environment names
        (state.grown (.literal literal) (some literal.type) span).tree [⟨state.size⟩] ([] ++ []) := by
      apply Accepted.one InferenceState.kind_of_grown .nil
      · exact InferenceState.type_of_grown
      · rfl
    exact whole
  solid := by
    rw [InferenceState.type_of_grown]
    cases literal <;> nofun

/-- A value that is constructed, of a type that was spelled just before. -/
theorem defaulted_construct {middle : InferenceState} {written : NodeId} {name : String}
    (names : Scopes) (readable : environment.host.ReadsBack (.named name))
    (quiet : middle.diagnostics = before.diagnostics)
    (spells : middle.tree.arena.Spells (.named name) written) (span : Span) :
    Defaulted environment names before
      (middle.grown (.construct written []) (some (.named name)) span) ⟨middle.size⟩ where
  quiet := quiet
  accepted := by
    have old : written.index < middle.size := Arena.kind_bound spells.1
    have kept : (middle.grown (.construct written []) (some (.named name)) span).tree.arena.Spells
        (.named name) written := by
      apply Arena.spells_of_node _ spells
      rw [InferenceState.node_grown, if_neg (Nat.ne_of_lt old)]
    have spelled : Accepted environment names
        (middle.grown (.construct written []) (some (.named name)) span).tree [written]
        ([] ++ []) := by
      apply Accepted.one kept.1 .nil
      · rw [kept.2]
        exact ⟨_, rfl, readable⟩
      · rfl
    have whole : Accepted environment names
        (middle.grown (.construct written []) (some (.named name)) span).tree [⟨middle.size⟩]
        ([] ++ []) := by
      apply Accepted.one InferenceState.kind_of_grown spelled
      · exact InferenceState.type_of_grown.trans kept.2.symm
      · rfl
    exact whole
  solid := by
    rw [InferenceState.type_of_grown]
    nofun

theorem yields_defaulted (names : Scopes) (readable : environment.host.ReadsBack type)
    (sound : Sound limit origin state) (place : state.span? node = some span) :
    Yields (addDefault type node) state fun value final =>
      Defaulted environment names state final value := by
  unfold addDefault
  split
  · exact yields_add sound place (defaulted_literal names _ span)
  · rename_i name none
    rw [yields_bind]
    refine yields_add_type_ref sound place ?_
    have grown : Sound limit origin (state.spelled (.named name) span) :=
      sound_grown sound (sound.placed place).2
    have still : (state.spelled (.named name) span).span? node = some span := by
      rw [InferenceState.span_grown, if_neg (Nat.ne_of_lt (sound.placed place).1)]
      exact place
    have quiet : (state.spelled (.named name) span).diagnostics = state.diagnostics := rfl
    refine yields_add_typed grown still ?_
    exact defaulted_construct names readable quiet (InferenceState.spells_spelled _) span
  · exact yields_add sound place (defaulted_literal names _ span)

/-- A variable that was declared is accepted with its default. -/
theorem approves_default {written value : NodeId} {name : String} {defined valued : InferenceState}
    (known : origin.arena.kind? node = some (.definition (some written) name))
    (introduced : Introduced limit origin environment node name (some type) before defined)
    (default : Default limit origin (fun _ => False) type span (Covered origin [node] before defined)
      defined valued value)
    (defaulted : Defaulted environment before.scopes defined valued value)
    (scopes : valued.scopes = defined.scopes)
    (taken : Taken limit origin (fun _ => False) node before
      (valued.grown (.assign .assign node value) none span) ⟨valued.size⟩)
    (clean : (valued.grown (.assign .assign node value) none span).Clean) :
    Approves environment ⟨valued.size⟩ before
      (valued.grown (.assign .assign node value) none span) := by
  have found : (valued.grown (.assign .assign node value) none span).kind? ⟨valued.size⟩ =
      some (.assign .assign node value) := InferenceState.kind_of_grown
  have last : Leaves (fun _ => False) valued
      (valued.grown (.assign .assign node value) none span) := leaves_grown
  have quiet : (valued.grown (.assign .assign node value) none span).diagnostics =
      defined.diagnostics := defaulted.quiet
  have visible : (valued.grown (.assign .assign node value) none span).scopes =
      defined.scopes := scopes
  generalize valued.grown (.assign .assign node value) none span = after at *
  have grows : Leaves (fun _ => False) defined after :=
    default.rewrites.leaves.trans last fun _ inside _ => inside
  have covered : Covered origin [node] before defined node := Visits.child_covered (by simp)
  rcases introduced.approved with ⟨reports, reported, accepted⟩
  have declared := accepted.later introduced.work.settled (by simpa using covered) grows
    fun _ _ => id
  have assigned := defaulted.accepted.later default.rewrites.settled
    (by simpa using Or.inr default.made) last fun _ _ => id
  have valueTyped : after.type? value = valued.type? value :=
    Arena.type_of_node (last.node value default.made.2 id)
  have typed : after.type? node = some type :=
    (Arena.type_of_node (grows.node node (introduced.work.settled.bounded covered) id)).trans
      introduced.typed
  rcases taken.work.image (below_singleton.mpr .refl) known with ⟨image, defines, alike⟩
  rcases taken.work.settled _ taken.covered with ⟨now, fine, -⟩
  cases found.symm.trans fine.found
  refine ⟨reports, quiet.trans reported, ?_⟩
  rw [visible, introduced.scopes, ← typed]
  cases alike with
  | definition only =>
      cases only with
      | some stands =>
          refine .define found (assigned.append declared) ?_ (fine.obeys clean) defines
            introduced.unseen introduced.free
          rw [show after.tree.arena.type? value = _ from valueTyped]
          exact defaulted.solid

/-- `type name`, which is assigned its default. -/
theorem approves_bare {written : NodeId} {name : String} (constructed : origin.Constructed limit)
    (known : origin.arena.kind? node = some (.definition (some written) name))
    (ready : Ready limit origin node before) (fresh : before.duplicates = [])
    (taken : Taken limit origin (fun _ => False) node before after now)
    (ran : Ran (bareDefinition environment node (some written) name) before now after)
    (clean : after.Clean) : Approves environment now before after := by
  rcases ran_bind.mp ran with ⟨type, _, resolving, ran⟩
  rcases ran_bind.mp ran with ⟨_, _, storing, ran⟩
  rcases ran_bind.mp ran with ⟨_, defined, defining, ran⟩
  have whole : defined.Clean → Declared written node name type before defined :=
    declared_of_ran resolving storing defining fresh
  cases type with
  | none =>
      cases ran
      cases (whole clean).known
  | some type =>
      rcases ran_bind.mp ran with ⟨value, valued, defaulting, adding⟩
      have mild := keeps_mild_add_default _ _ _ _ _ defaulting
      have early := mild.clean ((keeps_mild_add _ _ _ _ _ adding).clean clean)
      have introduced := introduced_of_ran constructed known ready resolving storing defining fresh
        early
      have work := introduced.work
      have spanned := (taken_self work).spanned constructed (Arena.kind_bound known)
      rcases Option.isSome_iff_exists.mp spanned with ⟨span, place⟩
      have default := (yields_add_default work.sound work.settled place
        fun void => introduced.solid (congrArg some void)).of_ran defaulting
      have defaulted : Defaulted environment before.scopes defined valued value :=
        (yields_defaulted before.scopes (introduced.readable type rfl) work.sound place).of_ran
          defaulting
      have still : valued.span? node = some span := by
        rw [default.rewrites.spans node (work.sound.placed place).1]
        exact place
      have added : now = ⟨valued.size⟩ ∧
          after = valued.grown (.assign .assign node value) none span := by
        suffices Yields (add (.assign .assign node value) node) valued fun now final =>
            now = ⟨valued.size⟩ ∧ final = valued.grown (.assign .assign node value) none span from
          this.of_ran adding
        exact yields_add default.rewrites.sound still ⟨rfl, rfl⟩
      rcases added with ⟨rfl, rfl⟩
      exact approves_default known introduced default defaulted mild.scopes taken clean

end Defaults

/-- One case for each kind of statement that holds no others. -/
theorem approves_leaf {node now : NodeId} {kind : NodeKind NodeId} {before after : InferenceState}
    {check : NodeId → Inference NodeId} (constructed : origin.Constructed limit)
    (known : origin.arena.kind? node = some kind) (plain : kind.isNested = false)
    (admits : kind.isStatement = true) (ready : Ready limit origin node before)
    (fresh : before.duplicates = [])
    (ran : Ran (anyStatement environment check node) before now after)
    (taken : Taken limit origin (fun _ => False) node before after now) (clean : after.Clean) :
    Approves environment now before after := by
  rcases ran_bind.mp ran with ⟨_, _, got, checked⟩
  cases got
  rw [show before.tree.arena.kind? node = some kind from ready.kind.trans known] at checked
  cases kind with
  | definition written name =>
      cases written with
      | none => cases admits
      | some written => exact approves_bare constructed known ready fresh taken checked clean
  | assign operator target value =>
      exact approves_assignment constructed known ready fresh taken checked clean
  | returnFrom value => exact approves_return constructed known ready checked clean
  | breakLoop => exact approves_jump known (Or.inl rfl) ready checked clean
  | continueLoop => exact approves_jump known (Or.inr rfl) ready checked clean
  | call | construct | unary => exact approves_evaluated constructed known rfl ready checked clean
  | body | condition | loop => cases plain
  | _ => cases admits

end Inference

end ModuleLang
