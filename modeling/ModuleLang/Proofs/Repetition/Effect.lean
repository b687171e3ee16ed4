import ModuleLang.Proofs.Linked.Adding
import ModuleLang.Proofs.Repetition.Clash

/-!
What a statement does to names. A statement that holds no others either leaves the names and
what was reported of them alone, or declares a name that was not there, or reports a definition
of a name together with the definition that was there before. The node that declares a name has
the span of the place that defines it in the parsed tree.
-/

namespace ModuleLang

/-- The reports about names that are defined again. -/
def InferenceState.told (state : InferenceState) : List Diagnostic :=
  state.diagnostics.filter fun found => found.kind.isRepetition

/-- Names that are visible. -/
def Scopes.seen (scopes : Scopes) : Set String := {name | (scopes.lookup name).isSome = true}

/-- Names that closed frames inside the innermost one declared. -/
def Scopes.held (scopes : Scopes) : Set String := {name | (scopes.nested name).isSome = true}

namespace Inference

variable {limit : Position} {origin : SourceTree} {environment : Environment}

/-- The names and what was reported of them are as before. -/
structure SameNames (before after : InferenceState) : Prop where
  scopes : after.scopes = before.scopes
  duplicates : after.duplicates = before.duplicates
  told : after.told = before.told

theorem same_names_frame : Frame SameNames where
  refl _ := ⟨rfl, rfl, rfl⟩
  trans first second := ⟨second.scopes.trans first.scopes,
    second.duplicates.trans first.duplicates, second.told.trans first.told⟩
  tree _ _ := ⟨rfl, rfl, rfl⟩
  report state found other := by
    have other := (Bool.or_eq_false_iff.mp other).2
    refine ⟨rfl, rfl, ?_⟩
    unfold InferenceState.told
    rw [List.filter_append, List.filter_singleton, other]
    exact List.append_nil _

/-- Nodes that were there keep their spans. -/
structure Spanned (before after : InferenceState) : Prop where
  size : before.size ≤ after.size
  spans : ∀ id, id.index < before.size → after.span? id = before.span? id

theorem spanned_chain : Chained Spanned where
  refl _ := ⟨Nat.le_refl _, fun _ _ => rfl⟩
  trans first second := ⟨Nat.le_trans first.size second.size, fun id old =>
    (second.spans id (Nat.lt_of_lt_of_le old first.size)).trans (first.spans id old)⟩

section Spans

variable {value : Type} {start final : InferenceState} {node : NodeId} {result : Unit}

theorem spanned_of_tree (same : final.tree = start.tree) : Spanned start final := by
  constructor
  · unfold InferenceState.size
    rw [same]
  · intro id _
    unfold InferenceState.span?
    rw [same]

theorem spanned_of_grows {kind : NodeKind NodeId} {type : Option Ty} {source : NodeId}
    {action : Inference NodeId} (grows : Grows kind type source action) : Keeps Spanned action := by
  intro start node final ran
  rcases grows start node final ran with ⟨rfl, span, -, rfl⟩
  constructor
  · simp [InferenceState.grown, InferenceState.size, Arena.size]
  · intro id old
    change (start.tree.spans.insert ⟨start.size⟩ span).span? id = _
    rw [SpanTable.span_insert, if_neg]
    rintro rfl
    exact Nat.lt_irrefl _ old

theorem keeps_spanned_set_type (node : NodeId) (type : Option Ty) :
    Keeps Spanned (setType node type) := by
  rintro start _ _ ran
  cases ran
  exact ⟨Nat.le_of_eq (Arena.size_setType _ _ _).symm, fun _ _ => rfl⟩

theorem keeps_spanned_report (id : NodeId) (kind : DiagnosticKind) :
    Keeps Spanned (report environment id kind) := by
  intro start _ final ran
  rcases report_adds ran with ⟨_, -, rfl⟩
  exact spanned_of_tree rfl

theorem keeps_spanned_resolve_type (written : NodeId) :
    Keeps Spanned (resolveType environment written) := by
  apply spanned_chain.keeps_bind
  · exact spanned_chain.keeps_bind spanned_chain.keeps_get fun _ => spanned_chain.keeps_pure _
  · intro kind
    split
    · split
      · exact spanned_chain.keeps_bind (keeps_spanned_report _ _) fun _ => spanned_chain.keeps_pure _
      · exact spanned_chain.keeps_bind (keeps_spanned_set_type _ _) fun _ =>
          spanned_chain.keeps_pure _
    · exact Chained.keeps_throw _

theorem keeps_spanned_insert_cast (parent child : NodeId) (target : Ty) :
    Keeps Spanned (insertCast parent child target) := by
  apply spanned_chain.keeps_bind
  · exact spanned_chain.keeps_bind spanned_chain.keeps_get fun _ => spanned_chain.keeps_pure _
  · intro source
    apply spanned_chain.keeps_bind (spanned_of_grows (grows_type_ref _ _))
    intro written
    apply spanned_chain.keeps_bind (spanned_of_grows (grows_add _ _))
    intro node
    apply spanned_chain.keeps_bind
    · intro start _ final ran
      rcases ran_replaced ran with ⟨_, _, -, -, rfl⟩
      exact ⟨Nat.le_of_eq (Arena.size_setKind _ _ _).symm, fun _ _ => rfl⟩
    · intro _
      exact keeps_spanned_set_type _ _

theorem keeps_spanned_store (statement : NodeId) (operator : AssignOperator) (value : NodeId)
    (targetType valueType : Option Ty) :
    Keeps Spanned (store environment statement operator value targetType valueType) := by
  unfold store
  split
  · split
    · split
      · exact keeps_spanned_report _ _
      · split
        · exact spanned_chain.keeps_pure _
        · exact keeps_spanned_insert_cast _ _ _
        · exact keeps_spanned_report _ _
    · exact spanned_chain.keeps_pure _
  · exact spanned_chain.keeps_pure _

theorem keeps_spanned_add_default (type : Ty) (source : NodeId) :
    Keeps Spanned (addDefault type source) := by
  unfold addDefault
  split
  · exact spanned_of_grows (grows_add _ _)
  · apply spanned_chain.keeps_bind (spanned_of_grows (grows_type_ref _ _))
    intro written
    exact spanned_of_grows (grows_typed _ _ _)
  · exact spanned_of_grows (grows_add _ _)

end Spans

/-- A report that a name is defined again, at the span of a node. -/
def Redefines (environment : Environment) (state : InferenceState) (name : String)
    (found : Diagnostic) (node : NodeId) : Prop :=
  ∃ span, state.span? node = some span ∧
    found = ⟨.duplicateVariable name, span, environment.fileName⟩

/-- Those of some nodes that were not reported before are reported now. -/
theorem ran_report_repetition {nodes : List NodeId} {name : String} {start final : InferenceState}
    {result : PUnit}
    (ran : Ran (nodes.forM fun node => do
      if !(← get).duplicates.contains node then
        modify fun state => { state with duplicates := node :: state.duplicates }
        report environment node (.duplicateVariable name)) start result final) :
    ∃ fresh reports, fresh.Nodup ∧ (∀ node ∈ fresh, node ∈ nodes ∧ node ∉ start.duplicates) ∧
      (∀ node ∈ nodes, node ∈ start.duplicates ∨ node ∈ fresh) ∧
      List.Forall₂ (Redefines environment start name) reports fresh ∧
      final = { start with
        duplicates := fresh.reverse ++ start.duplicates
        diagnostics := start.diagnostics ++ reports } := by
  induction nodes generalizing start with
  | nil =>
      cases ran
      refine ⟨[], [], List.nodup_nil, nofun, nofun, .nil, ?_⟩
      simp
  | cons node nodes ih =>
      rcases ran_bind.mp (show Ran (_ >>= fun _ => _) start result final from ran) with
        ⟨_, middle, first, rest⟩
      rcases ih rest with ⟨fresh, reports, distinct, new, all, told, rfl⟩
      rcases ran_bind.mp first with ⟨_, _, got, first⟩
      cases got
      split at first
      · rename_i unknown
        rcases ran_bind.mp first with ⟨_, _, noted, reported⟩
        cases noted
        rcases ran_report reported with ⟨span, known, rfl⟩
        have absent : node ∉ start.duplicates := by simpa using unknown
        have apart : node ∉ fresh := fun member => (new node member).2 List.mem_cons_self
        refine ⟨node :: fresh, ⟨.duplicateVariable name, span, environment.fileName⟩ :: reports,
          List.nodup_cons.mpr ⟨apart, distinct⟩, ?_, ?_, .cons ⟨span, known, rfl⟩ told, ?_⟩
        · intro other member
          rcases List.mem_cons.mp member with rfl | member
          · exact ⟨List.mem_cons_self, absent⟩
          · rcases new other member with ⟨among, fine⟩
            exact ⟨List.mem_cons_of_mem _ among, fun old => fine (List.mem_cons_of_mem _ old)⟩
        · intro other member
          rcases List.mem_cons.mp member with rfl | member
          · exact .inr List.mem_cons_self
          · rcases all other member with old | among
            · rcases List.mem_cons.mp old with rfl | old
              · exact .inr List.mem_cons_self
              · exact .inl old
            · exact .inr (List.mem_cons_of_mem _ among)
        · simp
      · rename_i known
        cases first
        have noted : node ∈ start.duplicates := by simpa using known
        refine ⟨fresh, reports, distinct, ?_, ?_, told, rfl⟩
        · intro other member
          exact ⟨List.mem_cons_of_mem _ (new other member).1, (new other member).2⟩
        · intro other member
          rcases List.mem_cons.mp member with rfl | member
          · exact .inl noted
          · exact all other member

theorem filter_of_redefines {state : InferenceState} {name : String} {reports : List Diagnostic}
    {nodes : List NodeId}
    (redefines : List.Forall₂ (Redefines environment state name) reports nodes) :
    reports.filter (fun found => found.kind.isRepetition) = reports := by
  induction redefines with
  | nil => rfl
  | cons first _ ih =>
      rcases first with ⟨span, -, rfl⟩
      rw [List.filter_cons_of_pos rfl, ih]

/-- A state in which a place of a statement is as it was parsed, with the names from before. -/
structure Approaches (origin : SourceTree) (statement place : NodeId)
    (before middle : InferenceState) : Prop where
  names : SameNames before middle
  size : before.size ≤ middle.size
  others : ∀ id, id.index < before.size → ¬ Below origin [statement] id →
    middle.span? id = before.span? id
  bound : place.index < middle.size
  own : middle.span? place = origin.spans.span? place

theorem Approaches.later {statement place : NodeId} {before middle after : InferenceState}
    (approaches : Approaches origin statement place before middle) (names : SameNames middle after)
    (spanned : Spanned middle after) : Approaches origin statement place before after where
  names := same_names_frame.trans approaches.names names
  size := Nat.le_trans approaches.size spanned.size
  others id old apart := (spanned.spans id (Nat.lt_of_lt_of_le old approaches.size)).trans
    (approaches.others id old apart)
  bound := Nat.lt_of_lt_of_le approaches.bound spanned.size
  own := (spanned.spans place approaches.bound).trans approaches.own

/-- What a statement that holds no others does to names. -/
inductive NameEffect (origin : SourceTree) (environment : Environment) (statement : NodeId)
    (before after : InferenceState) : Prop
  | none (same : SameNames before after)
      (quiet : ∀ name, ¬ origin.arena.Introduces before.scopes.seen name statement)
  | declared {name node place type}
      (introduces : origin.arena.Introduces before.scopes.seen name statement)
      (fresh : name ∉ before.scopes.seen ∪ before.scopes.held)
      (inside : origin.arena.Reachable statement place)
      (named : origin.arena.MayDefineAt name place)
      (new : node = place ∨ before.size ≤ node.index)
      (span : after.span? node = origin.spans.span? place)
      (scopes : after.scopes = before.scopes.declare name ⟨type, node, .inner⟩)
      (duplicates : after.duplicates = before.duplicates) (told : after.told = before.told)
  /-- Where the definition is an assignment, it declares the name nevertheless. -/
  | repeated {name earlier place middle reported}
      (introduces : origin.arena.Introduces before.scopes.seen name statement)
      (known : ((before.scopes.lookup name).map Binding.node).or (before.scopes.nested name) =
        some earlier)
      (inside : origin.arena.Reachable statement place)
      (named : origin.arena.MayDefineAt name place)
      (approaches : Approaches origin statement place before middle)
      (ran : Ran (reportDuplicate environment earlier place name) middle ⟨⟩ reported)
      (span : after.span? place = origin.spans.span? place)
      (scopes : after.scopes = before.scopes ∨
        ∃ type, after.scopes = before.scopes.declare name ⟨type, place, .inner⟩)
      (duplicates : after.duplicates = reported.duplicates) (told : after.told = reported.told)

section Leaves

variable {statement target value now node place written : NodeId} {name : String}
  {before middle after start final : InferenceState} {type : Option Ty} {result : Unit}

theorem may_define_unique {arena : Arena} {other : String}
    (defines : arena.MayDefine name statement) (also : arena.MayDefine other statement) :
    name = other := by
  rcases defines with (found | ⟨found, named⟩) | ⟨found, named⟩ <;>
    rcases also with (again | ⟨again, called⟩) | ⟨again, called⟩ <;> grind

theorem ran_report_duplicate_same {earlier later : NodeId}
    (ran : Ran (reportDuplicate environment earlier later name) start result final) :
    final.tree = start.tree ∧ final.scopes = start.scopes := by
  rcases ran_report_repetition ran with ⟨_, _, -, -, -, -, rfl⟩
  exact ⟨rfl, rfl⟩

theorem fresh_of_none {scopes : Scopes} (unseen : scopes.lookup name = none)
    (unheld : scopes.nested name = none) : name ∉ scopes.seen ∪ scopes.held := by
  rintro (seen | held)
  · exact absurd unseen (Option.ne_none_iff_isSome.mpr seen)
  · exact absurd unheld (Option.ne_none_iff_isSome.mpr held)

/-- A variable is defined with a written type. -/
theorem effect_of_definition {resolved stored defined : InferenceState} {kept : Unit}
    (typed : origin.arena.TypedDefinition name statement)
    (inside : origin.arena.Reachable statement place)
    (named : origin.arena.MayDefineAt name place)
    (approaches : Approaches origin statement place before middle)
    (resolving : Ran (resolveType environment written) middle type resolved)
    (storing : Ran (setType place type) resolved kept stored)
    (defining : Ran (define environment place name type) stored result defined)
    (later : SameNames defined after) (spanned : Spanned defined after) :
    NameEffect origin environment statement before after := by
  have introduces : origin.arena.Introduces before.scopes.seen name statement := .inl typed
  have approaches := (approaches.later
    (same_names_frame.keeps_resolve_type environment _ _ _ _ resolving)
    (keeps_spanned_resolve_type _ _ _ _ resolving)).later
    (same_names_frame.keeps_set_type _ _ _ _ _ storing) (keeps_spanned_set_type _ _ _ _ _ storing)
  have names := approaches.names
  rcases ran_bind.mp defining with ⟨_, _, got, defining⟩
  cases got
  rw [names.scopes, Option.orElse_eq_orElse, Option.orElse_eq_or] at defining
  split at defining
  · rename_i earlier known
    rcases ran_report_duplicate_same defining with ⟨tree, scopes⟩
    have spanned := spanned_chain.trans (spanned_of_tree tree) spanned
    apply NameEffect.repeated introduces known inside named approaches defining _ (.inl _)
      later.duplicates later.told
    · exact (spanned.spans place approaches.bound).trans approaches.own
    · rw [later.scopes, scopes, names.scopes]
  · rename_i unknown
    cases defining
    rcases Option.or_eq_none_iff.mp unknown with ⟨unseen, unheld⟩
    rw [Option.map_eq_none_iff] at unseen
    have declared : after.scopes = before.scopes.declare name ⟨type, place, .inner⟩ := by
      rw [later.scopes, ← names.scopes]
    apply NameEffect.declared introduces (fresh_of_none unseen unheld) inside named (.inl rfl) _
      declared (later.duplicates.trans names.duplicates) (later.told.trans names.told)
    exact (spanned.spans place approaches.bound).trans approaches.own

/-- The first assignment to a name declares it with a new node, which takes over the span of the
target. -/
theorem effect_of_implicit_definition {valueType : Option Ty}
    (plain : origin.arena.PlainAssignment name statement)
    (unseen : before.scopes.lookup name = none) (unheld : before.scopes.nested name = none)
    (inside : origin.arena.Reachable statement target)
    (named : origin.arena.MayDefineAt name target)
    (approaches : Approaches origin statement target before middle)
    (ran : Ran (implicitDefinition statement target name valueType) middle result after) :
    NameEffect origin environment statement before after := by
  rcases ran_bind.mp ran with ⟨written, wrote, spelling, ran⟩
  rcases ran_bind.mp ran with ⟨definition, made, adding, ran⟩
  rcases ran_bind.mp ran with ⟨_, typed, storing, ran⟩
  rcases ran_bind.mp ran with ⟨_, moved, moving, ran⟩
  rcases ran_bind.mp ran with ⟨_, pointed, replacing, ran⟩
  have spelled : SameNames middle wrote ∧ Spanned middle wrote := by
    cases found : valueType.filter fun type => type ≠ .null with
    | none =>
        rw [found] at spelling
        cases spelling
        exact ⟨same_names_frame.refl _, spanned_chain.refl _⟩
    | some type =>
        rw [found, Option.mapM_some, map_eq_pure_bind] at spelling
        rcases ran_bind.mp spelling with ⟨_, _, spelling, done⟩
        cases done
        exact ⟨same_names_frame.keeps_add_type_ref _ _ _ _ _ spelling,
          spanned_of_grows (grows_type_ref _ _) _ _ _ spelling⟩
  have approaches := approaches.later spelled.1 spelled.2
  have names := same_names_frame.trans approaches.names
    (same_names_frame.trans (same_names_frame.keeps_on_tree _ _ _ _ adding)
      (same_names_frame.trans (same_names_frame.keeps_set_type _ _ _ _ _ storing)
        (same_names_frame.trans (same_names_frame.keeps_on_tree _ _ _ _ moving)
          (same_names_frame.keeps_on_tree _ _ _ _ replacing))))
  have new : before.size ≤ definition.index := by
    rw [(ran_alloc adding).new]
    exact approaches.size
  have span : pointed.span? definition = origin.spans.span? target := by
    have still : typed.span? target = wrote.span? target := by
      cases storing
      cases adding
      rfl
    rcases ran_move_span moving with ⟨span, known, rfl⟩
    rcases ran_replaced replacing with ⟨_, _, -, -, rfl⟩
    change ((typed.tree.spans.erase target).insert definition span).span? definition = _
    rw [SpanTable.span_insert, if_pos rfl, ← known, still]
    exact approaches.own
  have fresh := fresh_of_none unseen unheld
  let binding : Binding := ⟨valueType.filter fun type => type ≠ .null, definition, .inner⟩
  have declared : pointed.scopes.declare name binding = before.scopes.declare name binding := by
    rw [names.scopes]
  cases ran
  exact .declared (.inr ⟨plain, fun seen => fresh (.inl seen)⟩) fresh inside named (.inr new) span
    declared names.duplicates names.told

/-- A statement that does nothing to names, as it defines none or one that is visible. -/
theorem effect_of_same (same : SameNames before after)
    (seen : ∀ name, origin.arena.PlainAssignment name statement → name ∈ before.scopes.seen)
    (untyped : ∀ name, ¬ origin.arena.TypedDefinition name statement) :
    NameEffect origin environment statement before after := by
  refine .none same ?_
  rintro name (typed | ⟨plain, unseen⟩)
  · exact untyped name typed
  · exact unseen (seen name plain)

/-- An assignment to a name. -/
theorem effect_of_name_assignment {operator : AssignOperator} {valueType : Option Ty}
    (found : origin.arena.kind? statement = some (.assign operator target value))
    (known : origin.arena.kind? target = some (.member name))
    (approaches : Approaches origin statement target before middle)
    (ran : Ran (nameAssignment environment statement operator target name value valueType) middle
      result after) :
    NameEffect origin environment statement before after := by
  have untyped : ∀ other, ¬ origin.arena.TypedDefinition other statement := by
    rintro other (again | ⟨again, named⟩)
    · cases found.symm.trans again
    · cases found.symm.trans again
      cases known.symm.trans named
  have inside : origin.arena.Reachable statement target := by
    exact .of_child (Arena.child_of_kind found List.mem_cons_self)
  rcases ran_bind.mp ran with ⟨_, _, got, ran⟩
  cases got
  rw [approaches.names.scopes] at ran
  split at ran
  · rename_i binding visible
    rcases ran_bind.mp ran with ⟨_, _, storing, ran⟩
    have same := same_names_frame.trans approaches.names (same_names_frame.trans
      (same_names_frame.keeps_set_type _ _ _ _ _ storing)
      (same_names_frame.keeps_store environment _ _ _ _ _ _ _ _ ran))
    refine effect_of_same same ?_ untyped
    rintro other ⟨again, called⟩
    cases found.symm.trans again
    cases known.symm.trans called
    exact Option.isSome_of_eq_some visible
  · rename_i unseen
    split at ran
    · rename_i compound
      have same := same_names_frame.trans approaches.names
        (same_names_frame.keeps_report environment _ rfl _ _ _ ran)
      refine effect_of_same same ?_ untyped
      rintro other ⟨again, called⟩
      cases found.symm.trans again
      exact absurd rfl compound
    · rename_i simple
      rw [show operator = .assign by simpa using simple] at found
      have plain : origin.arena.PlainAssignment name statement := .intro found known
      have named : origin.arena.MayDefineAt name target := .plain found known
      split at ran
      · rename_i earlier held
        rcases ran_bind.mp ran with ⟨_, reported, reporting, ran⟩
        rcases ran_bind.mp ran with ⟨_, stored, storing, ran⟩
        cases ran
        rcases ran_report_duplicate_same reporting with ⟨tree, scopes⟩
        have same := same_names_frame.keeps_set_type _ _ _ _ _ storing
        have spanned := spanned_chain.trans (spanned_of_tree tree)
          (keeps_spanned_set_type _ _ _ _ _ storing)
        refine .repeated (.inr ⟨plain, ?_⟩) ?_ inside named approaches reporting ?_
          (.inr ⟨valueType, ?_⟩) same.duplicates same.told
        · exact fun seen => absurd unseen (Option.ne_none_iff_isSome.mpr seen)
        · rw [unseen]
          exact held
        · exact (spanned.spans target approaches.bound).trans approaches.own
        · change stored.scopes.declare _ _ = _
          rw [same.scopes, scopes, approaches.names.scopes]
      · rename_i unheld
        exact effect_of_implicit_definition plain unseen unheld inside named approaches ran

/-- A statement that is no definition and no assignment. -/
theorem effect_of_other {kind : NodeKind NodeId} (same : SameNames before after)
    (found : origin.arena.kind? statement = some kind)
    (other : ∀ written called, kind ≠ .definition written called)
    (apart : ∀ operator target value, kind ≠ .assign operator target value) :
    NameEffect origin environment statement before after := by
  refine effect_of_same same ?_ ?_
  · rintro name ⟨again, _⟩
    exact absurd (Option.some.inj (found.symm.trans again)) (apart _ _ _)
  · rintro name (again | ⟨again, _⟩)
    · exact absurd (Option.some.inj (found.symm.trans again)) (other _ _)
    · exact absurd (Option.some.inj (found.symm.trans again)) (apart _ _ _)

theorem keeps_same_names_jump (node : NodeId) (keyword : Keyword) :
    Keeps SameNames (jump environment node keyword) := by
  apply same_names_frame.keeps_bind same_names_frame.keeps_get
  intro state
  split
  · intro start _ final ran
    rcases report_adds ran with ⟨found, same, rfl⟩
    refine ⟨rfl, rfl, ?_⟩
    unfold InferenceState.told
    rw [List.filter_append, List.filter_singleton, same]
    exact List.append_nil _
  · exact same_names_frame.keeps_pure _

/-- A definition without a value. -/
theorem effect_of_bare_definition
    (found : origin.arena.kind? statement = some (.definition (some written) name))
    (ready : Ready limit origin statement before)
    (ran : Ran (bareDefinition environment statement (some written) name) before now after) :
    NameEffect origin environment statement before after := by
  have bound : statement.index < before.size :=
    Nat.lt_of_lt_of_le (Arena.kind_bound found) ready.sound.size
  have approaches : Approaches origin statement statement before before :=
    ⟨same_names_frame.refl _, Nat.le_refl _, fun _ _ _ => rfl, bound,
      ready.untouched.span statement (below_singleton.mpr .refl)⟩
  rcases ran_bind.mp ran with ⟨declared, _, resolving, ran⟩
  rcases ran_bind.mp ran with ⟨_, _, storing, ran⟩
  rcases ran_bind.mp ran with ⟨_, defined, defining, ran⟩
  have rest : SameNames defined after ∧ Spanned defined after := by
    cases declared with
    | none =>
        cases ran
        exact ⟨same_names_frame.refl _, spanned_chain.refl _⟩
    | some declared =>
        rcases ran_bind.mp ran with ⟨_, _, defaulted, adding⟩
        constructor
        · exact same_names_frame.trans (same_names_frame.keeps_add_default _ _ _ _ _ defaulted)
            (same_names_frame.keeps_add _ _ _ _ _ adding)
        · exact spanned_chain.trans (keeps_spanned_add_default _ _ _ _ _ defaulted)
            (spanned_of_grows (grows_add _ _) _ _ _ adding)
  exact effect_of_definition (.bare found) .refl (.typed found) approaches resolving storing
    defining rest.1 rest.2

/-- An assignment, whatever its target is. -/
theorem effect_of_assignment (constructed : origin.Constructed limit) {operator : AssignOperator}
    (found : origin.arena.kind? statement = some (.assign operator target value))
    (ready : Ready limit origin statement before)
    (ran : Ran (assignment environment statement operator target value) before result after) :
    NameEffect origin environment statement before after := by
  rcases ran_bind.mp ran with ⟨valueType, valued, inferred, ran⟩
  rcases ran_bind.mp ran with ⟨_, _, got, ran⟩
  cases got
  have visits := visits_of_assigned_type constructed found ready inferred
  have targetReady := visits.next_ready
  have slot : target ∈ origin.arena.children statement :=
    Arena.child_of_kind found List.mem_cons_self
  rcases Arena.kind_exists (Nat.lt_trans (constructed.forest.below slot) (Arena.kind_bound found))
    with ⟨kind, known⟩
  rw [show valued.tree.arena.kind? target = some kind from targetReady.kind.trans known] at ran
  have names := same_names_frame.keeps_assigned_type environment _ _ _ _ inferred
  have approaches : Approaches origin statement target before valued := by
    refine ⟨names, visits.work.leaves.size, ?_, ?_, ?_⟩
    · intro id old apart
      apply visits.work.leaves.span id old
      intro inside
      apply apart
      have valueSlot : value ∈ (NodeKind.assign operator target value).children := by
        simp [NodeKind.children]
      exact below_singleton.mpr (((below_singleton.mp (inside_child found valueSlot))).trans
        (below_singleton.mp inside))
    · exact Nat.lt_of_lt_of_le (Arena.kind_bound known) targetReady.sound.size
    · exact targetReady.untouched.span target (below_singleton.mpr .refl)
  have other : SameNames valued after → (∀ name, kind ≠ .member name) →
      (∀ written name, kind ≠ .definition written name) →
      NameEffect origin environment statement before after := by
    intro same unnamed undefined
    refine effect_of_same (same_names_frame.trans names same) ?_ ?_
    · rintro name ⟨again, called⟩
      cases found.symm.trans again
      exact absurd (Option.some.inj (known.symm.trans called)) (unnamed _)
    · rintro name (again | ⟨again, called⟩)
      · cases found.symm.trans again
      · cases found.symm.trans again
        exact absurd (Option.some.inj (known.symm.trans called)) (undefined _ _)
  have accessed : ∀ {action : Option Ty → Inference Unit}, (∀ type, Keeps SameNames (action type)) →
      Ran (expression environment target >>= action) valued result after → SameNames valued after :=
    fun keeps ran => same_names_frame.keeps_bind (same_names_frame.keeps_expression environment _)
      keeps _ _ _ ran
  have stores : ∀ type, Keeps SameNames
      (store environment statement operator value type valueType) :=
    fun _ => same_names_frame.keeps_store environment _ _ _ _ _
  cases kind with
  | member name => exact effect_of_name_assignment found known approaches ran
  | memberAccess | indexAccess =>
      exact other (accessed stores ran) (fun _ same => by cases same) fun _ _ same => by cases same
  | definition type name =>
      cases type with
      | none => cases ran
      | some written =>
          rcases ran_bind.mp ran with ⟨_, _, resolving, ran⟩
          rcases ran_bind.mp ran with ⟨_, _, storing, ran⟩
          rcases ran_bind.mp ran with ⟨_, _, defining, stored⟩
          exact effect_of_definition (.assigned found known) (.of_child slot) (.typed known)
            approaches resolving storing defining (stores _ _ _ _ stored)
            (keeps_spanned_store _ _ _ _ _ _ _ _ stored)
  | _ => cases ran

theorem effect_of_leaf (constructed : origin.Constructed limit) {kind : NodeKind NodeId}
    {check : NodeId → Inference NodeId} (known : origin.arena.kind? statement = some kind)
    (plain : kind.isNested = false) (admits : kind.isStatement = true)
    (ready : Ready limit origin statement before)
    (ran : Ran (anyStatement environment check statement) before now after) :
    NameEffect origin environment statement before after := by
  have through : ∀ {value : Type} {action : Inference value},
      Ran (do let _ ← action; return statement) before now after → Keeps SameNames action →
      SameNames before after := by
    intro value action ran keeps
    rcases ran_bind.mp ran with ⟨_, _, ran, rest⟩
    cases rest
    exact keeps _ _ _ ran
  rcases ran_bind.mp ran with ⟨_, _, got, ran⟩
  cases got
  rw [show before.tree.arena.kind? statement = some kind from ready.kind.trans known] at ran
  cases kind with
  | body | condition | loop => cases plain
  | definition type name =>
      cases type with
      | none => cases admits
      | some written => exact effect_of_bare_definition known ready ran
  | assign operator target value =>
      rcases ran_bind.mp ran with ⟨_, _, assigned, rest⟩
      cases rest
      exact effect_of_assignment constructed known ready assigned
  | returnFrom value =>
      exact effect_of_other (through ran (same_names_frame.keeps_return environment _ _)) known nofun
        nofun
  | breakLoop | continueLoop =>
      exact effect_of_other (through ran (keeps_same_names_jump _ _)) known nofun nofun
  | call | construct | unary =>
      exact effect_of_other (through ran (same_names_frame.keeps_expression environment _)) known
        nofun nofun
  | _ => cases admits

end Leaves

end Inference

end ModuleLang
