import ModuleLang.Proofs.Linked.Heading
import ModuleLang.Proofs.Typing.Moments

/-!
What variables are recorded with. At every moment of inference the recorded type of a
visible variable is unknown or can be written. There is one way around this: a variable
that was declared in a body inside is a duplicate when it is assigned behind that body, and
is recorded with the type of the value then, be it that of `null`.
-/

namespace ModuleLang

namespace Inference

variable {environment : Environment} {host : Host} {node : NodeId} {type : Option Ty}
  {start final : InferenceState}

section Signatures

/-- Nodes whose types can be written keep such types. -/
def Stays (host : Host) (before after : InferenceState) : Prop :=
  ∀ id, host.Storable (before.type? id) → host.Storable (after.type? id)

theorem stays_chain : Chained (Stays host) where
  refl _ _ storable := storable
  trans first second id storable := second id (first id storable)

theorem storable_of_set_type {result : Unit} (storable : host.Storable type)
    (ran : Ran (setType node type) start result final) :
    Stays host start final ∧ (node.index < start.size → host.Storable (final.type? node)) := by
  rcases ran_set_type ran with ⟨stores, typed⟩
  refine ⟨fun id before => ?_, fun bound => (typed bound).symm ▸ storable⟩
  by_cases same : id = node
  · subst same
    by_cases bound : id.index < start.size
    · exact (typed bound).symm ▸ storable
    · have size : final.size ≤ id.index := by
        rw [stores.size]
        exact Nat.not_lt.mp bound
      have absent : final.type? id = none := by
        unfold InferenceState.type? Arena.type? Arena.node?
        rw [Array.getElem?_eq_none size]
        rfl
      exact absent ▸ if_known_none _
  · exact (stores.others id same).symm ▸ before

theorem keeps_stays_resolve_type (written : NodeId) :
    Keeps (Stays environment.host) (resolveType environment written) := by
  intro start type final ran
  have storable := storable_of_resolve ran
  rcases ran_bind.mp ran with ⟨_, _, got, ran⟩
  cases got
  split at ran
  · split at ran
    · rcases ran_bind.mp ran with ⟨_, _, reported, ran⟩
      cases ran
      rcases report_adds reported with ⟨_, -, rfl⟩
      exact fun _ before => before
    · rcases ran_bind.mp ran with ⟨_, _, stored, ran⟩
      cases ran
      exact (storable_of_set_type storable stored).1
  · cases ran

theorem storable_of_parameter_type {parameter : NodeId}
    (ran : Ran (parameterType environment parameter) start type final) :
    Stays environment.host start final ∧ environment.host.Storable (final.type? parameter) := by
  rcases ran_bind.mp ran with ⟨_, _, got, ran⟩
  cases got
  split at ran
  · rename_i written name found
    rcases ran_bind.mp ran with ⟨resolved, middle, resolving, ran⟩
    rcases ran_bind.mp ran with ⟨_, _, storing, ran⟩
    cases ran
    rcases storable_of_set_type (storable_of_resolve resolving) storing with ⟨stays, typed⟩
    have bound : parameter.index < middle.size := by
      rw [(ran_resolve_type resolving).1.size]
      exact Arena.kind_bound found
    exact ⟨stays_chain.trans (keeps_stays_resolve_type _ _ _ _ resolving) stays, typed bound⟩
  · cases ran

theorem storable_of_parameter_types {parameters : List NodeId} {types : List (Option Ty)}
    (ran : Ran (parameters.mapM (parameterType environment)) start types final) :
    Stays environment.host start final ∧
      ∀ parameter ∈ parameters, environment.host.Storable (final.type? parameter) := by
  induction parameters generalizing start types with
  | nil =>
      cases ran
      exact ⟨stays_chain.refl _, List.forall_mem_nil _⟩
  | cons parameter parameters ih =>
      rw [List.mapM_cons] at ran
      rcases ran_bind.mp ran with ⟨type, _, first, ran⟩
      rcases ran_bind.mp ran with ⟨rest, _, others, ran⟩
      cases ran
      rcases storable_of_parameter_type first with ⟨stays, own⟩
      rcases ih others with ⟨later, each⟩
      exact ⟨stays_chain.trans stays later, List.forall_mem_cons.mpr ⟨later _ own, each⟩⟩

/-- The parameters of a function, as they are when its signature is known. -/
def Taking (host : Host) (known state : InferenceState) (function : NodeId) : Prop :=
  ∀ result name parameters block,
    known.kind? function = some (.function result name parameters block) →
    ∀ parameter ∈ parameters, host.Storable (state.type? parameter)

theorem storable_of_signature {function : NodeId} {found : Signature}
    (ran : Ran (signature environment function) start found final) :
    Stays environment.host start final ∧ environment.host.Reads found.result ∧
      Taking environment.host start final function := by
  rcases ran_bind.mp ran with ⟨_, _, got, ran⟩
  cases got
  split at ran
  · rename_i result name parameters block known
    rcases ran_bind.mp ran with ⟨type, middle, resulting, ran⟩
    rcases ran_bind.mp ran with ⟨types, _, taken, ran⟩
    cases ran
    rcases storable_of_parameter_types taken with ⟨later, each⟩
    have first : Stays environment.host start middle ∧ environment.host.Reads type := by
      cases result with
      | none =>
          cases resulting
          exact ⟨stays_chain.refl _, if_known_some (Or.inr (Or.inl rfl))⟩
      | some written =>
          exact ⟨keeps_stays_resolve_type _ _ _ _ resulting,
            Host.reads_of_storable (storable_of_resolve resulting)⟩
    refine ⟨stays_chain.trans first.1 later, first.2, fun result name parameters block same => ?_⟩
    cases known.symm.trans same
    exact each
  · cases ran

/-- The results of the functions of a module are unknown, nothing, or can be written, and
so are the types of the parameters. -/
theorem storable_of_signatures {functions : List NodeId} {found : List Signature}
    (ran : Ran (functions.mapM (signature environment)) start found final) :
    Stays environment.host start final ∧
      (∀ signature ∈ found, environment.host.Reads signature.result) ∧
      ∀ function ∈ functions, Taking environment.host start final function := by
  induction functions generalizing start found with
  | nil =>
      cases ran
      exact ⟨stays_chain.refl _, List.forall_mem_nil _, List.forall_mem_nil _⟩
  | cons function functions ih =>
      rw [List.mapM_cons] at ran
      rcases ran_bind.mp ran with ⟨signature, middle, first, ran⟩
      rcases ran_bind.mp ran with ⟨rest, _, others, ran⟩
      cases ran
      rcases storable_of_signature first with ⟨stays, reads, taking⟩
      rcases ih others with ⟨later, results, each⟩
      have kinds := (keeps_retyped_signature function _ _ _ first).kind
      refine ⟨stays_chain.trans stays later, List.forall_mem_cons.mpr ⟨reads, results⟩,
        List.forall_mem_cons.mpr ⟨?_, ?_⟩⟩
      · intro result name parameters block known parameter member
        exact later parameter (taking result name parameters block known parameter member)
      · intro other member result name parameters block known
        exact each other member result name parameters block ((kinds other).trans known)

end Signatures

section Functions

variable {limit : Position} {tree : SourceTree} {root function block : NodeId}
  {modules imports functions passed left parameters : List NodeId} {result : Option NodeId}
  {name : String} {signed before after : InferenceState}

theorem recorded_of_empty {state : InferenceState} (empty : state.scopes = .empty) :
    Recorded host tree state := by
  unfold Recorded
  rw [empty]
  exact List.forall_mem_nil _

/-- Parameters are recorded with the types that are stored for them. -/
theorem recorded_of_parameters {value : Unit}
    (each : ∀ parameter ∈ parameters, host.Storable (before.type? parameter))
    (ran : Ran (parameters.forM declareParameter) (entered before result) value after) :
    Recorded host tree after := by
  have bound : Bound before.tree.arena (fun parameter => host.Storable (before.type? parameter))
      (before.tree.arena.parameterScopes parameters) := bound_parameters each
  rw [ran_declare_parameters ran]
  intro entry member
  rcases bound _ List.mem_cons_self entry member with ⟨⟨-, typed⟩, storable⟩
  exact Or.inl (typed ▸ storable)

/-- The parameters of a function that is left are of types that can be written. -/
theorem Prepared.taking
    (prepared : Prepared limit tree host root modules imports functions start signed)
    (advanced : Advanced limit tree host functions passed (function :: left) signed before)
    (taking : ∀ function ∈ functions, Taking host (.initial tree) signed function) :
    Taking host before before function := by
  intro result name parameters block known parameter inside
  have member : function ∈ functions := by simp [← advanced.whole]
  have found : tree.arena.kind? function = some (.function result name parameters block) :=
    (prepared.above_same advanced (Or.inr (prepared.child member))).1.symm.trans known
  have head : parameter ∈ allHeads tree functions := by
    refine List.mem_flatMap.mpr ⟨function, member, ?_⟩
    unfold Arena.heads
    rw [found]
    exact List.mem_append_right _ inside
  rw [(prepared.head_kept advanced head).1]
  exact taking function member result name parameters block found parameter inside

/-- What is recorded when a function is done with. -/
theorem Prepared.recorded_of_function
    (prepared : Prepared limit tree environment.host root modules imports functions start signed)
    (taking : ∀ function ∈ functions, Taking environment.host (.initial tree) signed function)
    (advanced : Advanced limit tree environment.host functions passed (function :: left) signed
      before)
    (readable : environment.Readable)
    (ran : Ran (Inference.function environment function) before ⟨⟩ after) :
    Recorded environment.host tree after := by
  rcases ran_bind.mp ran with ⟨_, _, got, ran⟩
  cases got
  split at ran
  · rename_i result name parameters block known
    rcases ran_bind.mp ran with ⟨_, opening, entering, ran⟩
    cases (yields_enter result before).of_ran entering
    rcases ran_bind.mp ran with ⟨_, declared, declares, ran⟩
    rcases prepared.body_ready advanced known declares with ⟨ready, admitted⟩
    have recorded : Recorded environment.host tree declared := recorded_of_parameters
      (prepared.taking advanced taking result name parameters block known) declares
    have walk := (yields_walk_whole prepared.constructed admitted ready).of_ran ran
    exact (walk.impact prepared.constructed).recorded readable recorded
  · cases ran

end Functions

section Points

variable (fileName : String) (host : Host) (root : NodeId) (tree : SourceTree)

/-- The states of inference where it looks at the next signature, at the next function, at
the next parameter or at the next statement. -/
inductive Point : InferenceState → Prop
  | signing {modules imports passed left signatures state}
      (found : tree.arena.kind? root = some (.root modules imports (passed ++ left)))
      (signs : Ran (passed.mapM (signature ⟨fileName, host, []⟩)) (.initial tree) signatures
        state) : Point state
  | coming {environment left state}
      (comes : Comes fileName host root tree environment left state) : Point state
  | declaring {environment function left before result name parameters others block state}
      (comes : Comes fileName host root tree environment (function :: left) before)
      (known : before.kind? function = some (.function result name (parameters ++ others) block))
      (declares : Ran (parameters.forM declareParameter) (entered before result) ⟨⟩ state) :
      Point state
  | checking {environment start moment}
      (begins : Begins fileName host root tree environment start)
      (arrives : Arrives environment start moment) : Point moment.state

variable {fileName : String} {host : Host} {root : NodeId} {tree : SourceTree} {limit : Position}
  {environment : Environment} {left : List NodeId} {state : InferenceState}

/-- What is known where the next function is looked at. -/
theorem Comes.recorded (constructed : tree.Constructed limit) (described : host.Described)
    (comes : Comes fileName host root tree environment left state) :
    environment.Readable ∧ environment.host = host ∧ Recorded host tree state ∧
      ∀ function rest, left = function :: rest → Taking host state state function := by
  rcases comes with ⟨found, signs, earlier⟩
  rename_i modules imports passed signatures signed
  rcases (yields_prepared constructed found fileName host).of_ran signs with ⟨prepared, sound⟩
  rcases storable_of_signatures signs with ⟨-, results, takes⟩
  have taking : ∀ function ∈ passed ++ left, Taking host (.initial tree) signed function := takes
  have readable : Environment.Readable ⟨fileName, host, signatures⟩ := ⟨described, results⟩
  have empty : signed.scopes = .empty :=
    (undeclared_frame.keeps_mapM (undeclared_frame.keeps_signature ⟨fileName, host, []⟩) _ _ _ _
      signs).scopes
  have advanced : Advanced limit tree host (passed ++ left) [] (passed ++ left) signed signed :=
    ⟨rfl, sound, .nil _ prepared.work.sound, List.forall_mem_nil _⟩
  have each : ∀ {passed' function rest before after},
      Advanced limit tree host (passed ++ left) passed' (function :: rest) signed before →
      Ran (Inference.function ⟨fileName, host, signatures⟩ function) before ⟨⟩ after →
      Recorded host tree after := fun advanced ran =>
    prepared.recorded_of_function taking advanced readable ran
  have whole : Advanced limit tree host (passed ++ left) ([] ++ passed) left signed state ∧
      Recorded host tree state :=
    advanced_of_ran prepared each advanced (recorded_of_empty empty) earlier
  refine ⟨readable, rfl, whole.2, ?_⟩
  rintro function rest rfl
  exact prepared.taking whole.1 taking

/-- At every point of inference, what is recorded of the visible variables can be written,
but for what was recovered from a duplicate. -/
theorem Point.recorded (constructed : tree.Constructed limit) (described : host.Described)
    (point : Point fileName host root tree state) : Recorded host tree state := by
  cases point with
  | signing _ signs =>
      exact recorded_of_empty
        (undeclared_frame.keeps_mapM (undeclared_frame.keeps_signature ⟨fileName, host, []⟩) _ _ _ _
          signs).scopes
  | coming comes => exact (comes.recorded constructed described).2.2.1
  | declaring comes known declares =>
      rcases comes.recorded constructed described with ⟨-, -, -, taking⟩
      apply recorded_of_parameters _ declares
      exact fun parameter member => taking _ _ rfl _ _ _ _ known parameter
        (List.mem_append_left _ member)
  | checking begins arrives =>
      have upcoming := begins.upcoming constructed
      rcases begins with ⟨comes, known, declares, held⟩
      rename_i function left before result name parameters block declared statements
      rcases comes.recorded constructed described with ⟨readable, same, -, taking⟩
      have recorded : Recorded host tree declared :=
        recorded_of_parameters (taking _ _ rfl _ _ _ _ known) declares
      rw [← same] at recorded ⊢
      exact (arrives.upcoming constructed upcoming).2.2 readable recorded

end Points

end Inference

namespace ParsedModule

open Inference

/-- At every point of inference the recorded type of a visible variable is unknown, or can be
written and is then neither nothing nor the type of `null`; or it is the type of `null`, and
the variable is a name that was a duplicate when it was assigned. -/
theorem point_storable {text fileName : String} {parsed : ParsedModule}
    (wasParsed : ofText text fileName = .ok parsed) {host : Host} (described : host.Described)
    {state : InferenceState} (point : Point parsed.fileName host parsed.root parsed.tree state)
    {name : String} {binding : Binding} (seen : state.scopes.lookup name = some binding) :
    (∀ type, binding.type = some type →
      host.ReadsBack type ∧ type ≠ .void ∧ type ≠ .null) ∨
    (binding.type = some .null ∧ binding.node ∈ state.duplicates ∧
      parsed.tree.arena.kind? binding.node = some (.member name)) := by
  rcases of_text_proper text fileName with ⟨again, parsedAgain, proper, -⟩
  cases wasParsed.symm.trans parsedAgain
  rcases (point.recorded proper.constructed described).binding seen with storable | recovered
  · exact Or.inl fun type typed =>
      ⟨storable type typed, Host.solid_of_reads_back (storable type typed)⟩
  · exact Or.inr recovered

/-- A moment of the first function is a point of inference. -/
theorem point_of_behind {parsed : ParsedModule} {host : Host} {environment : Environment}
    {start moment : Moment} {count : Nat} (begun : begun? host parsed = some (environment, start))
    (behind : behind? environment count start = some moment) :
    Point parsed.fileName host parsed.root parsed.tree moment.state :=
  .checking (begins_of_begun begun) (arrives_of_behind behind)

/-- What the first function has recorded of a name behind some statements. -/
def bindingBehind? (parsed : ParsedModule) (count : Nat) (name : String) : Option Binding := do
  let (environment, start) ← begun? .empty parsed
  let moment ← behind? environment count start
  moment.state.scopes.lookup name

theorem point_of_binding {parsed : ParsedModule} {count : Nat} {name : String} {binding : Binding}
    (found : parsed.bindingBehind? count name = some binding) : ∃ state,
      Point parsed.fileName .empty parsed.root parsed.tree state ∧
      state.scopes.lookup name = some binding := by
  rcases Option.bind_eq_some_iff.mp found with ⟨⟨environment, start⟩, begun, found⟩
  rcases Option.bind_eq_some_iff.mp found with ⟨moment, behind, found⟩
  exact ⟨moment.state, point_of_behind begun behind, found⟩

/-- A variable with the type of a parameter. -/
theorem point_storable_assigned : ∃ parsed state binding,
    ofText "module m; fn f(int a) { b := a; }" "m.plp" = .ok parsed ∧ Host.empty.Described ∧
    Point parsed.fileName .empty parsed.root parsed.tree state ∧
    state.scopes.lookup "b" = some binding ∧
    ((∀ type, binding.type = some type →
      Host.empty.ReadsBack type ∧ type ≠ .void ∧ type ≠ .null) ∨
    (binding.type = some .null ∧ binding.node ∈ state.duplicates ∧
      parsed.tree.arena.kind? binding.node = some (.member "b"))) := by
  rcases of_text_proper "module m; fn f(int a) { b := a; }" "m.plp" with ⟨parsed, wasParsed, -, -⟩
  have facts : (ofText "module m; fn f(int a) { b := a; }" "m.plp").toOption.any (fun parsed =>
      (parsed.bindingBehind? 1 "b").isSome) = true := by
    decide +kernel
  rw [wasParsed, Except.toOption, Option.any_some] at facts
  rcases Option.isSome_iff_exists.mp facts with ⟨binding, found⟩
  rcases point_of_binding found with ⟨state, point, seen⟩
  exact ⟨parsed, state, binding, wasParsed, Host.described_empty, point, seen,
    point_storable wasParsed Host.described_empty point seen⟩

/-- An assignment of `null` to a name that a body inside has declared leaves a variable with
the type of `null`. -/
theorem recovered_null : ∃ parsed state binding,
    ofText "module m; fn f() { { a := 1; } a := null; a := 2; }" "m.plp" = .ok parsed ∧
    Point parsed.fileName .empty parsed.root parsed.tree state ∧
    state.scopes.lookup "a" = some binding ∧ binding.type = some .null := by
  rcases of_text_proper "module m; fn f() { { a := 1; } a := null; a := 2; }" "m.plp" with
    ⟨parsed, wasParsed, -, -⟩
  have facts : (ofText "module m; fn f() { { a := 1; } a := null; a := 2; }" "m.plp").toOption.any
      (fun parsed => (parsed.bindingBehind? 2 "a").any fun binding =>
        binding.type = some .null) = true := by
    decide +kernel
  rw [wasParsed, Except.toOption, Option.any_some] at facts
  rcases (Option.any_eq_true _ _).mp facts with ⟨binding, found, null⟩
  rcases point_of_binding found with ⟨state, point, seen⟩
  exact ⟨parsed, state, binding, wasParsed, point, seen, of_decide_eq_true null⟩

end ParsedModule

end ModuleLang
