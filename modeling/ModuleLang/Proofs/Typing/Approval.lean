import ModuleLang.Proofs.Typing.Contraction
import ModuleLang.Proofs.Typing.Verdict

/-!
Modules that inference accepts. The types that are written in the signatures are
accepted before any function is known, and give the functions that may be called; the
body of every function is accepted with its parameters as the only visible names.
-/

namespace ModuleLang

namespace Arena

/-- The type of what a function returns. -/
def resultType (arena : Arena) : (result : Option NodeId) → Option Ty
  | none => some .void
  | some written => arena.type? written

/-- The signature of a function whose types were resolved. -/
def signature? (arena : Arena) (function : NodeId) : Option Signature :=
  match arena.kind? function with
  | some (.function result name parameters _) =>
      some ⟨name, parameters.map arena.type?, arena.resultType result⟩
  | _ => none

/-- The visible names with a parameter. Of several with one name the first one counts. -/
def withParameter (arena : Arena) (names : Scopes) (parameter : NodeId) : Scopes :=
  match arena.kind? parameter with
  | some (.parameter _ name) =>
      if (names.lookup name).isNone then
        names.declare name ⟨arena.type? parameter, parameter, .parameter⟩
      else names
  | _ => names

/-- The names that are visible where the body of a function starts. -/
def parameterScopes (arena : Arena) (parameters : List NodeId) : Scopes :=
  parameters.foldl arena.withParameter .empty

variable {arena other : Arena}

theorem result_type_of_same {result : Option NodeId}
    (same : ∀ written ∈ result, other.type? written = arena.type? written) :
    other.resultType result = arena.resultType result := by
  cases result with
  | none => rfl
  | some written => exact same written rfl

theorem signature_of_same {function block : NodeId} {result : Option NodeId} {name : String}
    {parameters : List NodeId}
    (found : arena.kind? function = some (.function result name parameters block))
    (kept : other.kind? function = arena.kind? function)
    (same : ∀ head ∈ result.toList ++ parameters, other.type? head = arena.type? head) :
    other.signature? function = arena.signature? function := by
  have results : other.resultType result = arena.resultType result :=
    result_type_of_same fun written member => same written (by simp [Option.mem_def.mp member])
  have types : parameters.map other.type? = parameters.map arena.type? :=
    List.map_congr_left fun parameter member => same parameter (by simp [member])
  unfold signature?
  rw [kept, found]
  simp only [results, types]

theorem parameter_scopes_of_same {parameters : List NodeId}
    (same : ∀ parameter ∈ parameters, other.node? parameter = arena.node? parameter) :
    other.parameterScopes parameters = arena.parameterScopes parameters := by
  apply List.foldl_ext
  intro names parameter member
  have kept := same parameter member
  unfold withParameter
  rw [kind_of_node kept, type_of_node kept]

end Arena

namespace Inference

variable {limit : Position} {origin : SourceTree} {environment : Environment}

/-- Nothing is reported but errors. -/
def Silent (before after : InferenceState) : Prop :=
  before.diagnostics <+: after.diagnostics ∧
    (after.Clean → after.diagnostics = before.diagnostics)

theorem silent_chain : Chained Silent where
  refl _ := ⟨List.prefix_refl _, fun _ => rfl⟩
  trans first second := ⟨first.1.trans second.1, fun clean =>
    (second.2 clean).trans (first.2 (clean_of_grown second.1 clean))⟩

theorem keeps_silent_set_type (node : NodeId) (type : Option Ty) :
    Keeps Silent (setType node type) := by
  intro start result final ran
  cases ran
  exact ⟨List.prefix_refl _, fun _ => rfl⟩

theorem keeps_silent_resolve_type (node : NodeId) :
    Keeps Silent (resolveType environment node) := by
  intro start type final ran
  refine ⟨grows_frame.keeps_resolve_type environment node _ _ _ ran, fun clean => ?_⟩
  rcases ran_bind.mp ran with ⟨_, _, got, ran⟩
  cases got
  split at ran
  · split at ran
    · rcases ran_bind.mp ran with ⟨_, _, reported, ran⟩
      cases ran
      exact absurd clean (not_clean_of_report reported rfl)
    · rcases ran_bind.mp ran with ⟨_, _, stored, ran⟩
      cases stored
      cases ran
      rfl
  · cases ran

theorem keeps_silent_parameter_type (parameter : NodeId) :
    Keeps Silent (parameterType environment parameter) := by
  unfold parameterType
  refine silent_chain.keeps_bind (fun _ _ _ ran => ?_) fun kind => ?_
  · cases ran
    exact silent_chain.refl _
  · split
    · refine silent_chain.keeps_bind (keeps_silent_resolve_type _) fun _ => ?_
      refine silent_chain.keeps_bind (keeps_silent_set_type _ _) fun _ => ?_
      exact silent_chain.keeps_pure _
    · exact Chained.keeps_throw _

/-- What is wrong with a signature is an error. -/
theorem keeps_silent_signature (function : NodeId) :
    Keeps Silent (signature environment function) := by
  unfold signature
  refine silent_chain.keeps_bind (fun _ _ _ ran => ?_) fun kind => ?_
  · cases ran
    exact silent_chain.refl _
  · split
    · rename_i result _ _ _
      have known : Keeps Silent (resultType environment result) := by
        cases result with
        | none => exact silent_chain.keeps_pure _
        | some written => exact keeps_silent_resolve_type _
      refine silent_chain.keeps_bind known fun _ => ?_
      refine silent_chain.keeps_bind (silent_chain.keeps_mapM keeps_silent_parameter_type _)
        fun _ => ?_
      exact silent_chain.keeps_pure _
    · exact Chained.keeps_throw _

section Signatures

variable {node child : NodeId} {kind : NodeKind NodeId} {done rest : List NodeId} {scopes : Scopes}
  {before state final : InferenceState}

/-- A parameter that is visited next. -/
theorem Approving.visit_parameter {type : Option Ty}
    (approving : Approving limit origin environment scopes node kind done (child :: rest) before
      state) (slot : (Category.parameter, child) ∈ kind.slots)
    (ran : Ran (parameterType environment child) state type final) :
    Approving limit origin environment scopes node kind (done ++ [child]) rest before final ∧
      final.type? child = type ∧ Onward done state final := by
  have visits := approving.visits
  have constructed := visits.constructed
  rcases constructed.admitted visits.found _ slot with ⟨inner, found, admits⟩
  rcases ran_bind.mp ran with ⟨_, _, got, ran⟩
  cases got
  rw [show state.tree.arena.kind? child = some inner from visits.next_ready.kind.trans found] at ran
  cases inner with
  | parameter written name =>
      rcases ran_bind.mp ran with ⟨type, resolved, resolving, ran⟩
      rcases ran_bind.mp ran with ⟨_, _, storing, ran⟩
      cases ran
      have begun : Approving limit origin environment state.scopes child (.parameter written name)
          [] [written] state state := .begin constructed found visits.next_ready
      rcases begun.visit_type (by simp [NodeKind.slots]) resolving with ⟨inner, typed⟩
      have judged : Judged limit origin (fun _ => False) child (.parameter written name) type state
          resolved := judged_plain inner.visits fun _ => trivial
      rcases (yields_typed judged).of_ran storing with ⟨work, own⟩
      have stores := (ran_set_type storing).1
      have same := undeclared_frame.trans
        (undeclared_frame.keeps_resolve_type environment written _ _ _ resolving)
        stores.toUndeclared
      refine ⟨approving.next work same fun clean => ?_, own, visits.types_kept work,
        same.diagnostics⟩
      have early := stores.clean clean
      have concluded : Concluded environment state.scopes child type state resolved :=
        inner.conclude early rfl fun _ _ => (typed early).symm
      rw [← approving.visible]
      exact concluded.typed judged storing
  | _ => cases admits

/-- What the signature of a function leaves behind. -/
theorem approving_signature {function block : NodeId} {result : Option NodeId} {name : String}
    {parameters : List NodeId} {found : Signature} (constructed : origin.Constructed limit)
    (known : origin.arena.kind? function = some (.function result name parameters block))
    (ready : Ready limit origin function state)
    (ran : Ran (signature environment function) state found final) :
    Approving limit origin environment state.scopes function (.function result name parameters block)
      (result.toList ++ parameters) [block] state final ∧
      (final.Clean → final.tree.arena.signature? function = some found) := by
  rcases ran_bind.mp ran with ⟨_, _, got, ran⟩
  cases got
  rw [show state.tree.arena.kind? function = _ from ready.kind.trans known] at ran
  rcases ran_bind.mp ran with ⟨resultType, middle, resolving, ran⟩
  rcases ran_bind.mp ran with ⟨types, _, visiting, ran⟩
  cases ran
  have begun : Approving limit origin environment state.scopes function
      (.function result name parameters block) [] (result.toList ++ parameters ++ [block]) state
      state := .begin constructed known ready
  have resolved : Approving limit origin environment state.scopes function
      (.function result name parameters block) result.toList (parameters ++ [block]) state middle ∧
      (middle.Clean → middle.tree.arena.resultType result = resultType) := by
    cases result with
    | none =>
        cases resolving
        exact ⟨begun, fun _ => rfl⟩
    | some written => exact begun.visit_type (by simp [NodeKind.slots]) resolving
  rcases resolved.1.visit_list (fun approving => approving.visit_parameter)
    (fun parameter member => by simp [NodeKind.slots, member]) visiting with
    ⟨approving, parameterTypes, onward⟩
  refine ⟨approving, fun clean => ?_⟩
  have held : final.tree.arena.kind? function = _ := approving.visits.node_same.1
  have kept : final.tree.arena.resultType result = middle.tree.arena.resultType result :=
    Arena.result_type_of_same fun written member =>
      onward.kept written (by simp [Option.mem_def.mp member])
  unfold Arena.signature?
  rw [held]
  simp only
  rw [kept, resolved.2 (clean_of_grown onward.grows clean)]
  exact congrArg (fun types => some (Signature.mk name types resultType)) parameterTypes

/-- The heads of functions are below them. -/
theorem below_of_heads {functions : List NodeId} {id : NodeId}
    (inside : Below origin (allHeads origin functions) id) : Below origin functions id := by
  rcases inside with ⟨head, member, path⟩
  rcases List.mem_flatMap.mp member with ⟨function, within, isHead⟩
  exact ⟨function, within, .below_child (Arena.head_is_child isHead) path⟩

/-- The signatures of functions are known, and their heads are accepted. -/
structure Announced (limit : Position) (origin : SourceTree) (environment : Environment)
    (functions : List NodeId) (signatures : List Signature) (before after : InferenceState) :
    Prop where
  work : Passed limit origin (allHeads origin functions) before after
  heads : after.Clean → ∀ function ∈ functions,
    Accepted environment before.scopes after.tree (origin.arena.heads function) []
  signatures : after.Clean → functions.filterMap after.tree.arena.signature? = signatures

theorem announced_of_ran {functions : List NodeId} {signatures : List Signature}
    (constructed : origin.Constructed limit) (siblings : Siblings origin functions)
    (kinds : ∀ function ∈ functions, ∃ result name parameters block,
      origin.arena.kind? function = some (.function result name parameters block))
    (sound : Sound limit origin state) (untouched : Untouched origin (Below origin functions) state)
    (ran : Ran (functions.mapM (signature environment)) state signatures final) :
    Announced limit origin environment functions signatures state final := by
  induction functions generalizing state signatures with
  | nil =>
      rw [List.mapM_nil] at ran
      cases ran
      exact ⟨.nil _ sound, fun _ => List.forall_mem_nil _, fun _ => rfl⟩
  | cons function rest ih =>
      rw [List.mapM_cons] at ran
      rcases ran_bind.mp ran with ⟨found, middle, first, ran⟩
      rcases ran_bind.mp ran with ⟨others, _, more, ran⟩
      cases ran
      rcases kinds function List.mem_cons_self with ⟨result, name, parameters, block, known⟩
      have heads : origin.arena.heads function = result.toList ++ parameters := by
        simp [Arena.heads, known]
      have ready : Ready limit origin function state :=
        ⟨sound, untouched.part fun _ inside => below_cons.mpr (Or.inl inside)⟩
      rcases approving_signature constructed known ready first with ⟨approving, announced⟩
      have work : Passed limit origin (origin.arena.heads function) state middle :=
        heads ▸ approving.visits.work
      have within : ∀ {id}, Below origin (origin.arena.heads function) id →
          Below origin [function] id := fun inside =>
        below_of_heads (by simpa [allHeads] using inside)
      have apart : ∀ {id}, Below origin [function] id → ¬ Below origin (allHeads origin rest) id :=
        fun inside other => siblings.apart constructed inside (below_of_heads other)
      have bounded : ∀ {id}, Below origin rest id → id.index < origin.arena.size := fun inside =>
        siblings.bounded constructed (below_cons.mpr (Or.inr inside))
      have later : Untouched origin (Below origin rest) middle := by
        refine (untouched.part fun _ inside => below_cons.mpr (Or.inr inside)).later work.leaves
          (fun _ inside => Nat.lt_of_lt_of_le (bounded inside) sound.size) fun _ inside other => ?_
        exact siblings.apart constructed (within other) inside
      have tail := ih siblings.tail (fun other member => kinds other (List.mem_cons_of_mem _ member))
        work.sound later more
      have unchanged : Unchanged middle.tree final.tree (origin.arena.heads function) := by
        apply work.settled.unchanged (fun _ => Visits.child_covered) tail.work.leaves
        rintro id (inside | ⟨new, -⟩) other
        · exact apart (within inside) other
        · exact Nat.not_lt.mpr (Nat.le_trans sound.size new) (bounded (below_of_heads other))
      have held : middle.kind? function = _ := approving.visits.node_same.1
      have kept : final.tree.arena.kind? function = middle.tree.arena.kind? function :=
        Arena.kind_of_node (tail.work.leaves.node function (Arena.kind_bound held)
          (apart (below_singleton.mpr .refl)))
      refine ⟨?_, fun clean other member => ?_, fun clean => ?_⟩
      · apply work.append sound tail.work (fun _ inside => bounded (below_of_heads inside))
        exact fun _ inside => apart (within inside)
      · have early := tail.work.leaves.clean clean
        rcases List.mem_cons.mp member with rfl | member
        · rcases approving.approved early with ⟨reports, reported, accepted⟩
          have quiet := (keeps_silent_signature _ _ _ _ first).2 early
          rw [quiet] at reported
          cases List.self_eq_append_right.mp reported
          rw [heads] at unchanged ⊢
          exact accepted.frame unchanged
        · rw [← approving.visible]
          exact tail.heads clean other member
      · have own := announced (tail.work.leaves.clean clean)
        rw [← Arena.signature_of_same held kept (heads ▸ unchanged.type)] at own
        rw [List.filterMap_cons, own, tail.signatures clean]

end Signatures

/-- A function that is accepted: its head before any function is known, and its body among
its parameters. -/
inductive Endorsed (environment : Environment) (tree : SourceTree) (function : NodeId)
    (reports : List Diagnostic) : Prop
  | intro {result name parameters block last}
      (found : tree.arena.kind? function = some (.function result name parameters block))
      (heads : Accepted { environment with functions := [] } .empty tree
        (result.toList ++ parameters) [])
      (body : Proceeds environment (tree.arena.resultType result) tree 0
        (tree.arena.parameterScopes parameters) [block] last reports)

/-- Functions that are accepted one after the other. -/
def EndorsedAll (environment : Environment) (tree : SourceTree) (functions : List NodeId)
    (reports : List Diagnostic) : Prop :=
  ∃ each, List.Forall₂ (Endorsed environment tree) functions each ∧ reports = each.flatten

section Modules

variable {root : NodeId} {modules imports functions left parameters : List NodeId}
  {fileName : String} {host : Host} {signatures : List Signature}
  {start signed before after final ended : InferenceState}

/-- Declaring parameters changes nothing but the visible names. -/
theorem ran_declare_parameters {result : Unit}
    (ran : Ran (parameters.forM declareParameter) start result final) :
    final = { start with
      scopes := parameters.foldl start.tree.arena.withParameter start.scopes } := by
  induction parameters generalizing start with
  | nil =>
      cases ran
      rfl
  | cons parameter parameters ih =>
      rcases ran_bind.mp ran with ⟨_, middle, first, rest⟩
      have one : middle = { start with
          scopes := start.tree.arena.withParameter start.scopes parameter } := by
        rcases ran_bind.mp first with ⟨_, _, got, first⟩
        cases got
        split at first
        · rename_i written name found
          rcases ran_bind.mp first with ⟨_, _, got, first⟩
          cases got
          unfold Arena.withParameter
          rw [found]
          simp only
          split at first
          · rename_i unseen
            rcases ran_bind.mp first with ⟨_, _, got, first⟩
            cases got
            cases first
            rw [if_pos unseen]
          · rename_i seen
            cases first
            rw [if_neg seen]
        · cases first
      rw [ih rest, one]
      rfl

/-- The heads of functions stay as they are while bodies are worked on. -/
theorem Course.head_node
    (course : Course limit origin fileName host root modules imports functions signatures signed
      ended)
    (rounds : Rounds limit origin environment functions signed left before after)
    (start : origin.arena.size ≤ before.size) (subset : ∀ function ∈ left, function ∈ functions)
    {head : NodeId} (isHead : head ∈ allHeads origin functions) :
    after.tree.arena.node? head = before.tree.arena.node? head := by
  have below : Below origin (allHeads origin functions) head := ⟨head, isHead, .refl⟩
  have bound := below_child_bounded course.prepared.constructed (fun node member => by
    rcases List.mem_flatMap.mp member with ⟨function, -, inside⟩
    exact ⟨function, Arena.head_is_child inside⟩) below
  exact rounds.leaves.node head (Nat.lt_of_lt_of_le bound start)
    (course.prepared.heads_apart subset below)

/-- A body that was walked without an error is accepted among its parameters. -/
theorem Course.body_proceeds {result : Option NodeId} {block : NodeId} {rest : List NodeId}
    {function : NodeId} {name : String} {declared : InferenceState}
    (course : Course limit origin fileName host root modules imports functions signatures signed
      ended)
    (known : origin.arena.kind? function = some (.function result name parameters block))
    (whole : left ++ function :: rest = functions)
    (entry : Ran (parameters.forM declareParameter) (entered before result) ⟨⟩ declared)
    (ready : Ready limit origin block declared)
    (walk : Walk limit origin environment [block] declared [block] after)
    (work : Passed limit origin [block] declared after)
    (later : Rounds limit origin environment functions signed rest after final)
    (fresh : before.duplicates = []) (clean : after.Clean) :
    after.duplicates = [] ∧ ∃ last reports, after.diagnostics = before.diagnostics ++ reports ∧
      Proceeds environment (before.tree.arena.resultType result) final.tree 0
        (before.tree.arena.parameterScopes parameters) [block] last reports := by
  have constructed := course.prepared.constructed
  cases ran_declare_parameters entry
  rcases walk.proceeds constructed (siblings_of_kind known (by simp [NodeKind.children])) fresh clean
    with ⟨still, reports, reported, proceeds⟩
  have same : resultOf before result = before.tree.arena.resultType result := by
    cases result <;> rfl
  have isBlock : origin.arena.blocks function = [block] := by simp [Arena.blocks, known]
  have unchanged : Unchanged (outside after).tree (outside final).tree [block] := by
    have settled := work.settled.of_same_tree (show (outside after).tree = after.tree from rfl) id
    apply settled.unchanged (fun _ => Visits.child_covered) later.leaves
    rintro id (inside | ⟨new, -⟩)
    · exact course.blocks_apart whole isBlock inside
    · intro inside
      exact Nat.not_lt.mpr (Nat.le_trans ready.sound.size new) (blocks_bounded constructed inside)
  have accepted := proceeds.frame unchanged
  change Proceeds environment (resultOf before result) _ _ _ _ _ _ at accepted
  rw [same] at accepted
  exact ⟨still, after.scopes, reports, reported, accepted⟩

/-- The functions that are left are accepted, with what is reported about them. -/
theorem Course.rounds_endorsed
    (course : Course limit origin fileName host root modules imports functions signatures signed
      ended)
    (rounds : Rounds limit origin ⟨fileName, host, signatures⟩ functions signed left before final)
    (kept : ∀ function ∈ left, final.tree.arena.kind? function = origin.arena.kind? function)
    (heads : ∀ function ∈ left, Accepted ⟨fileName, host, []⟩ .empty final.tree
      (origin.arena.heads function) [])
    (fresh : before.duplicates = []) (clean : final.Clean) :
    ∃ reports, final.diagnostics = before.diagnostics ++ reports ∧
      EndorsedAll ⟨fileName, host, signatures⟩ final.tree left reports := by
  induction rounds with
  | nil => exact ⟨[], (List.append_nil _).symm, [], .nil, rfl⟩
  | @next function result name parameters block passed rest before declared after final known
      advanced entry noted ready walk work later ih =>
      have early : after.Clean := clean_of_grown later.leaves.diagnostics clean
      rcases course.body_proceeds known advanced.whole entry ready walk work later fresh early with
        ⟨still, last, reports, reported, body⟩
      have subset : ∀ other ∈ function :: rest, other ∈ functions := fun other member =>
        advanced.whole ▸ List.mem_append_right _ member
      have isHead : ∀ head ∈ result.toList ++ parameters, head ∈ allHeads origin functions := by
        intro head member
        refine List.mem_flatMap.mpr ⟨function, subset function List.mem_cons_self, ?_⟩
        simpa [Arena.heads, known] using member
      have rounds : Rounds limit origin ⟨fileName, host, signatures⟩ functions signed
          (function :: rest) before final :=
        .next known advanced entry noted ready walk work later
      have nodes : ∀ head ∈ result.toList ++ parameters,
          final.tree.arena.node? head = before.tree.arena.node? head := fun head member =>
        course.head_node rounds advanced.sound.size subset (isHead head member)
      rw [← Arena.result_type_of_same fun written member =>
          Arena.type_of_node (nodes written (by simp [Option.mem_def.mp member])),
        ← Arena.parameter_scopes_of_same fun parameter member => nodes parameter (by simp [member])]
        at body
      rcases ih (fun other member => kept other (List.mem_cons_of_mem _ member))
        (fun other member => heads other (List.mem_cons_of_mem _ member)) still clean with
        ⟨more, also, each, others, rfl⟩
      have own := heads function List.mem_cons_self
      rw [show origin.arena.heads function = result.toList ++ parameters by
        simp [Arena.heads, known]] at own
      have endorsed : Endorsed ⟨fileName, host, signatures⟩ final.tree function reports :=
        .intro ((kept function List.mem_cons_self).trans known) own body
      refine ⟨reports ++ each.flatten, ?_, reports :: each, .cons endorsed others, rfl⟩
      rw [also, reported, List.append_assoc]

/-- What the signatures of all functions leave behind. -/
theorem Course.announced
    (course : Course limit origin fileName host root modules imports functions signatures signed
      final) :
    Announced limit origin ⟨fileName, host, []⟩ functions signatures (.initial origin) signed := by
  have prepared := course.prepared
  apply announced_of_ran prepared.constructed _ _ prepared.sound _ course.ran
  · exact siblings_of_kind prepared.found (List.sublist_append_right _ _)
  · exact fun function member => function_kind prepared.constructed prepared.found member
  · apply prepared.untouched.part
    rintro id ⟨function, member, path⟩
    exact below_singleton.mpr (.below_child (prepared.child member) path)

/-- The heads of all functions are not changed after the signatures. -/
theorem Course.heads_unchanged
    (course : Course limit origin fileName host root modules imports functions signatures signed
      final) {function : NodeId} (member : function ∈ functions) :
    Unchanged signed.tree final.tree (origin.arena.heads function) := by
  have prepared := course.prepared
  have settled := course.announced.work.settled.of_same_tree
    (show (outside signed).tree = signed.tree from rfl) id
  have unchanged : Unchanged (outside signed).tree (outside final).tree
      (origin.arena.heads function) := by
    apply settled.unchanged (fun head inside => ?_) course.rounds.leaves
    · rintro id (inside | ⟨new, -⟩)
      · exact prepared.heads_apart (fun _ held => held) inside
      · intro inside
        exact Nat.not_lt.mpr new (blocks_bounded prepared.constructed inside)
    · exact Visits.child_covered (List.mem_flatMap.mpr ⟨function, member, inside⟩)
  exact unchanged

/-- A module without an error is accepted as it is left. -/
theorem Course.endorsed
    (course : Course limit origin fileName host root modules imports functions signatures signed
      final) (clean : final.Clean) :
    signatures = functions.filterMap final.tree.arena.signature? ∧
      EndorsedAll ⟨fileName, host, signatures⟩ final.tree functions final.diagnostics := by
  have prepared := course.prepared
  have announced := course.announced
  have early : signed.Clean := clean_of_grown course.rounds.leaves.diagnostics clean
  have above : ∀ function ∈ functions,
      final.tree.arena.kind? function = origin.arena.kind? function := fun function member =>
    (course.inferred.above function (Or.inr (prepared.child member))).1
  have start : Undeclared (.initial origin) signed :=
    undeclared_frame.keeps_mapM (undeclared_frame.keeps_signature _) _ _ _ _ course.ran
  have quiet : signed.diagnostics = [] :=
    (silent_chain.keeps_mapM keeps_silent_signature _ _ _ _ course.ran).2 early
  constructor
  · rw [← announced.signatures early]
    apply List.filterMap_congr
    intro function member
    rcases function_kind prepared.constructed prepared.found member with
      ⟨result, name, parameters, block, known⟩
    have begun : Advanced limit origin host functions [] functions signed signed :=
      ⟨rfl, course.sound, .nil _ prepared.work.sound, nofun⟩
    have held : signed.tree.arena.kind? function = _ :=
      (prepared.above_same begun (Or.inr (prepared.child member))).1.trans known
    have unchanged := course.heads_unchanged member
    rw [show origin.arena.heads function = result.toList ++ parameters by
      simp [Arena.heads, known]] at unchanged
    exact (Arena.signature_of_same held ((above function member).trans (known.trans held.symm))
      unchanged.type).symm
  · rcases course.rounds_endorsed course.rounds above
      (fun function member => (announced.heads early function member).frame
        (course.heads_unchanged member)) start.duplicates clean with ⟨reports, reported, endorsed⟩
    rw [quiet, List.nil_append] at reported
    rw [reported]
    exact endorsed

end Modules

end Inference

end ModuleLang
