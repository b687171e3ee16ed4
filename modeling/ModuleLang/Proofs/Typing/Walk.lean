import ModuleLang.Proofs.Typing.Module

/-!
The course of inference through bodies. A walk records, statement by statement,
which rule was run in which state and what it left behind, so that a property of
the whole course is shown by induction on its walk. The statements that hold no
others are the leaves; of these the rule itself is recorded.
-/

namespace ModuleLang

/-- The action ended with a value and a state. -/
def Ran {error state value : Type} (action : EStateM error state value) (start : state)
    (result : value) (final : state) : Prop :=
  action.run start = .ok result final

theorem Yields.ran {error state value : Type} {action : EStateM error state value} {start : state}
    {holds : value → state → Prop} (yields : Yields action start holds) :
    Yields action start fun result final => holds result final ∧ Ran action start result final := by
  obtain ⟨result, final, ran, met⟩ := yields_iff.mp yields
  exact yields_iff.mpr ⟨result, final, ran, met, ran⟩

theorem Yields.of_ran {error state value : Type} {action : EStateM error state value}
    {start final : state} {result : value} {holds : value → state → Prop}
    (yields : Yields action start holds) (ran : Ran action start result final) :
    holds result final := by
  unfold Yields at yields
  rw [ran] at yields
  exact yields

theorem ran_bind {error state value image : Type} {action : EStateM error state value}
    {next : value → EStateM error state image} {start final : state} {result : image} :
    Ran (action >>= next) start result final ↔
      ∃ found middle, Ran action start found middle ∧ Ran (next found) middle result final := by
  unfold Ran
  rw [EStateM.run_bind]
  cases action.run start with
  | ok found middle => simp
  | error failure middle => simp

namespace NodeKind

variable {slot : Type}

/-- Whether a statement holds other ones. -/
def isNested : NodeKind slot → Bool
  | body _ | condition .. | loop .. => true
  | _ => false

end NodeKind

namespace Inference

/-- The work on a part of a tree, whatever the results of its functions are. -/
abbrev Passed (limit : Position) (origin : SourceTree) : List NodeId → InferenceState →
    InferenceState → Prop :=
  Worked limit origin fun _ => False

/-- A parsed node whose turn has come. -/
structure Ready (limit : Position) (origin : SourceTree) (node : NodeId) (state : InferenceState) :
    Prop where
  sound : Sound limit origin state
  untouched : Untouched origin (Below origin [node]) state

/-- The frame of a body is open. -/
def opened (state : InferenceState) : InferenceState :=
  { state with scopes := state.scopes.push }

/-- The frame is closed, and the body holds the nodes that were found for it. -/
def closed (state : InferenceState) (node : NodeId) (found : List NodeId) : InferenceState :=
  { state.withArena (state.tree.arena.setKind node (.body found)) with scopes := state.scopes.pop }

/-- One loop more around the statement, and one less. -/
def deeper (state : InferenceState) : InferenceState :=
  { state with loopDepth := state.loopDepth + 1 }

def shallower (state : InferenceState) : InferenceState :=
  { state with loopDepth := state.loopDepth - 1 }

section Walks

variable (limit : Position) (origin : SourceTree) (environment : Environment)

/-- The way through statements from one state to another, with the nodes that take
their places. -/
inductive Walk : List NodeId → InferenceState → List NodeId → InferenceState → Prop
  | nil {state} : Walk [] state [] state
  | leaf {node kind now rest found before after final} (check : NodeId → Inference NodeId)
      (known : origin.arena.kind? node = some kind) (plain : kind.isNested = false)
      (admits : kind.isStatement = true) (ready : Ready limit origin node before)
      (ran : Ran (anyStatement environment check node) before now after)
      (taken : Taken limit origin (fun _ => False) node before after now)
      (later : Walk rest after found final) : Walk (node :: rest) before (now :: found) final
  | body {node statements inner rest found before visited final}
      (known : origin.arena.kind? node = some (.body statements))
      (ready : Ready limit origin node before)
      (inside : Walk statements (opened before) inner visited)
      (work : Passed limit origin [node] before (closed visited node inner))
      (later : Walk rest (closed visited node inner) found final) :
      Walk (node :: rest) before (node :: found) final
  | condition {node condition thenBody elseBody rest found before first second third final}
      (known : origin.arena.kind? node = some (.condition condition thenBody elseBody))
      (ready : Ready limit origin node before)
      (asked : Ran (predicate environment condition) before ⟨⟩ first)
      (askedWork : Passed limit origin [condition] before first)
      (thenWalk : Walk [thenBody] first [thenBody] second)
      (elseWalk : Walk elseBody.toList second elseBody.toList third)
      (work : Passed limit origin [node] before third)
      (later : Walk rest third found final) : Walk (node :: rest) before (node :: found) final
  | loop {node condition block rest found before first second final}
      (known : origin.arena.kind? node = some (.loop condition block))
      (ready : Ready limit origin node before)
      (asked : Ran (predicate environment condition) before ⟨⟩ first)
      (askedWork : Passed limit origin [condition] before first)
      (inside : Walk [block] (deeper first) [block] second)
      (work : Passed limit origin [node] before (shallower second))
      (later : Walk rest (shallower second) found final) :
      Walk (node :: rest) before (node :: found) final

end Walks

variable {limit : Position} {origin : SourceTree} {environment : Environment}

theorem Walk.append {first second found more : List NodeId} {before middle after : InferenceState}
    (left : Walk limit origin environment first before found middle)
    (right : Walk limit origin environment second middle more after) :
    Walk limit origin environment (first ++ second) before (found ++ more) after := by
  induction left with
  | nil => exact right
  | leaf check known plain admits ready ran taken _ ih =>
      exact .leaf check known plain admits ready ran taken (ih right)
  | body known ready inside work _ _ ih => exact .body known ready inside work (ih right)
  | condition known ready asked askedWork thenWalk elseWalk work _ _ _ ih =>
      exact .condition known ready asked askedWork thenWalk elseWalk work (ih right)
  | loop known ready asked askedWork inside work _ _ ih =>
      exact .loop known ready asked askedWork inside work (ih right)

theorem below_cons {node id : NodeId} {rest : List NodeId} :
    Below origin (node :: rest) id ↔ Below origin [node] id ∨ Below origin rest id := by
  rw [← Worked.below_append, List.singleton_append]

/-- Changes of some nodes after those of another one. -/
theorem Leaves.cons {node : NodeId} {rest : List NodeId} {before middle after : InferenceState}
    (first : Leaves (Below origin [node]) before middle)
    (second : Leaves (Below origin rest) middle after) :
    Leaves (Below origin (node :: rest)) before after :=
  (first.weaken fun _ inside => below_cons.mpr (Or.inl inside)).trans second
    fun _ inside _ => below_cons.mpr (Or.inr inside)

/-- Nothing but the statements is changed on the way through them. -/
theorem Walk.leaves {nodes found : List NodeId} {before after : InferenceState}
    (walk : Walk limit origin environment nodes before found after) :
    Leaves (Below origin nodes) before after := by
  induction walk with
  | nil => exact .refl _ _
  | leaf _ _ _ _ _ _ taken _ ih => exact taken.work.leaves.cons ih
  | body _ _ _ work _ _ ih => exact work.leaves.cons ih
  | condition _ _ _ _ _ _ work _ _ _ ih => exact work.leaves.cons ih
  | loop _ _ _ _ _ work _ _ ih => exact work.leaves.cons ih

/-- A node whose turn has come is what it was parsed as. -/
theorem Ready.kind {node : NodeId} {state : InferenceState} (ready : Ready limit origin node state) :
    state.kind? node = origin.arena.kind? node :=
  ready.untouched.kind node (below_singleton.mpr .refl)

/-- The turn of the next child has come. -/
theorem Visits.next_ready {node child : NodeId} {kind : NodeKind NodeId} {done rest : List NodeId}
    {results : Option Ty → Prop} {before state : InferenceState}
    (visits : Visits limit origin results node kind done (child :: rest) before state) :
    Ready limit origin child state :=
  ⟨visits.sound, visits.next_untouched⟩

/-- The value of an assignment is looked at before the target, whose turn comes next. -/
theorem visits_of_assigned_type {node target value : NodeId} {operator : AssignOperator}
    {type : Option Ty} {before valued : InferenceState} (constructed : origin.Constructed limit)
    (known : origin.arena.kind? node = some (.assign operator target value))
    (ready : Ready limit origin node before)
    (ran : Ran (assignedType environment value) before type valued) :
    Visits limit origin (fun _ => False) node (.assign operator target value) [value] [target]
      before valued := by
  have start : Visits limit origin (fun _ => False) node (.assign operator target value) []
      [target, value] before before := .begin constructed known ready.sound ready.untouched
  have slot : (Category.expression, value) ∈ (NodeKind.assign operator target value).slots := by
    simp [NodeKind.slots]
  exact ((yields_assigned_type (start.reorder (.swap _ _ _)) slot).of_ran ran).1

section Rules

variable {check : NodeId → Inference NodeId} {node child : NodeId} {state : InferenceState}

/-- The checking of statements with a number below `bound` is walked. -/
def Walked (limit : Position) (origin : SourceTree) (environment : Environment) (bound : Nat)
    (check : NodeId → Inference NodeId) : Prop :=
  ∀ node state, node.index < bound → origin.arena.Admitted .statement node →
    Ready limit origin node state → Yields (check node) state fun now final =>
      Taken limit origin (fun _ => False) node state final now ∧
      Walk limit origin environment [node] state [now] final

theorem Walked.checks {bound : Nat} (walked : Walked limit origin environment bound check) :
    Checks limit origin (fun _ => False) bound check :=
  fun node state within admitted sound untouched _ =>
    (walked node state within admitted ⟨sound, untouched⟩).weaken fun _ _ both => both.1

theorem yields_walk_body {bound : Nat} (constructed : origin.Constructed limit)
    (walked : Walked limit origin environment bound check) (within : node.index ≤ bound)
    (admitted : origin.arena.Admitted .body node) (ready : Ready limit origin node state) :
    Yields (body check node) state fun _ final =>
      Passed limit origin [node] state final ∧
      Walk limit origin environment [node] state [node] final := by
  have work := yields_body constructed walked.checks within admitted ready.sound ready.untouched
    fun _ => False.elim
  obtain ⟨kind, known, admits⟩ := admitted
  cases kind with
  | body statements =>
      have visits : Visits limit origin (fun _ => False) node (.body statements) [] statements state
          state := .begin constructed known ready.sound ready.untouched
      have inner : Yields (body check node) state fun _ final => ∃ found visited,
          Walk limit origin environment statements (opened state) found visited ∧
          final = closed visited node found := by
        unfold body
        rw [yields_bind, yields_kind, visits.node_same.1]
        simp only
        rw [yields_bind, yields_on_scopes, yields_bind]
        have pushed : Noted limit origin (fun _ => False) state (opened state) :=
          noted_of_scopes ready.sound rfl rfl rfl fun _ member => Or.inl (Scopes.nodes_push member)
        refine (yields_mapM check (fun found left current => ∃ passed, passed ++ left = statements ∧
          Visits limit origin (fun _ => False) node (.body statements) passed left state current ∧
          Walk limit origin environment passed (opened state) found current) ?_ statements []
          (opened state) ⟨[], rfl, visits.noted pushed, .nil⟩).weaken ?_
        · rintro found head tail current ⟨passed, whole, visits, walk⟩
          have slot : (Category.statement, head) ∈ (NodeKind.body statements).slots := by
            simp [NodeKind.slots, ← whole]
          have below := visits.below_index
            (List.mem_append_right passed (List.mem_cons_self (l := tail)))
          refine (walked head current (by omega) (constructed.admitted known _ slot)
            visits.next_ready).weaken ?_
          rintro now final ⟨taken, step⟩
          refine ⟨passed ++ [head], ?_, visits.next taken.work, walk.append step⟩
          rw [List.append_assoc, List.singleton_append]
          exact whole
        · rintro found visited ⟨passed, whole, visits, walk⟩
          rw [List.append_nil] at whole
          subst whole
          rw [yields_bind, yields_set_kind, yields_on_scopes]
          exact ⟨found, visited, walk, rfl⟩
      refine (work.and inner).weaken ?_
      rintro _ _ ⟨work, found, visited, walk, rfl⟩
      exact ⟨work, .body known ready walk work .nil⟩
  | _ => cases admits

/-- A predicate is worked on as an expression is. -/
theorem yields_walk_predicate {kind : NodeKind NodeId} {done rest : List NodeId}
    {before : InferenceState}
    (visits : Visits limit origin (fun _ => False) node kind done (child :: rest) before state)
    (slot : (Category.expression, child) ∈ kind.slots) :
    Yields (predicate environment child) state fun value final =>
      Visits limit origin (fun _ => False) node kind (done ++ [child]) rest before final ∧
      Passed limit origin [child] state final ∧
      Ran (predicate environment child) state value final := by
  have admitted := visits.constructed.admitted visits.found _ slot
  refine (yields_predicate (fun _ => False) visits.constructed admitted visits.sound
    visits.next_untouched).ran.weaken ?_
  rintro value final ⟨⟨work, -⟩, ran⟩
  exact ⟨visits.next work, work, ran⟩

theorem yields_walk_block {bound : Nat} {kind : NodeKind NodeId} {done rest : List NodeId}
    {before : InferenceState} (walked : Walked limit origin environment bound check)
    (within : node.index ≤ bound)
    (visits : Visits limit origin (fun _ => False) node kind done (child :: rest) before state)
    (slot : (Category.body, child) ∈ kind.slots) :
    Yields (body check child) state fun _ final =>
      Visits limit origin (fun _ => False) node kind (done ++ [child]) rest before final ∧
      Walk limit origin environment [child] state [child] final := by
  have below := visits.below_index (List.mem_append_right done (List.mem_cons_self (l := rest)))
  have inside : child.index ≤ bound := by omega
  refine (yields_walk_body visits.constructed walked inside
    (visits.constructed.admitted visits.found _ slot) visits.next_ready).weaken ?_
  rintro _ final ⟨work, walk⟩
  exact ⟨visits.next work, walk⟩

theorem yields_walk_condition {bound : Nat} {condition thenBody : NodeId}
    {elseBody : Option NodeId} (walked : Walked limit origin environment bound check)
    (within : node.index ≤ bound)
    (visits : Visits limit origin (fun _ => False) node (.condition condition thenBody elseBody) []
      (condition :: thenBody :: elseBody.toList) state state) :
    Yields (do
      predicate environment condition
      body check thenBody
      elseBody.forM (body check)
      return node) state fun now final => ∃ first second, now = node ∧
      Ran (predicate environment condition) state ⟨⟩ first ∧
      Passed limit origin [condition] state first ∧
      Walk limit origin environment [thenBody] first [thenBody] second ∧
      Walk limit origin environment elseBody.toList second elseBody.toList final := by
  rw [yields_bind]
  refine (yields_walk_predicate visits (by simp [NodeKind.slots])).weaken ?_
  rintro _ first ⟨visits, work, ran⟩
  rw [yields_bind]
  refine (yields_walk_block walked within visits (by simp [NodeKind.slots])).weaken ?_
  rintro _ second ⟨visits, thenWalk⟩
  cases elseBody with
  | none => exact ⟨first, second, rfl, ran, work, thenWalk, .nil⟩
  | some block =>
      rw [yields_bind]
      refine (yields_walk_block walked within visits (by simp [NodeKind.slots])).weaken ?_
      rintro _ third ⟨visits, elseWalk⟩
      exact ⟨first, second, rfl, ran, work, thenWalk, elseWalk⟩

theorem yields_walk_loop {bound : Nat} {condition block : NodeId}
    (walked : Walked limit origin environment bound check) (within : node.index ≤ bound)
    (visits : Visits limit origin (fun _ => False) node (.loop condition block) []
      [condition, block] state state) :
    Yields (whileLoop environment check condition block) state fun _ final => ∃ first second,
      Ran (predicate environment condition) state ⟨⟩ first ∧
      Passed limit origin [condition] state first ∧
      Walk limit origin environment [block] (deeper first) [block] second ∧
      final = shallower second := by
  unfold whileLoop
  rw [yields_bind]
  refine (yields_walk_predicate visits (by simp [NodeKind.slots])).weaken ?_
  rintro _ first ⟨visits, work, ran⟩
  rw [yields_bind, yields_modify, yields_bind]
  have deepened : Noted limit origin (fun _ => False) first (deeper first) :=
    noted_of_scopes visits.sound rfl rfl rfl fun _ member => Or.inl member
  refine (yields_walk_block walked within (visits.noted deepened)
    (by simp [NodeKind.slots])).weaken ?_
  rintro _ second ⟨visits, walk⟩
  rw [yields_modify]
  exact ⟨first, second, ran, work, walk, rfl⟩

/-- One case for each kind that holds statements; the others are leaves. -/
theorem yields_walk_statement (constructed : origin.Constructed limit)
    (walked : Walked limit origin environment node.index check)
    (admitted : origin.arena.Admitted .statement node) (ready : Ready limit origin node state) :
    Yields (anyStatement environment check node) state fun now final =>
      Taken limit origin (fun _ => False) node state final now ∧
      Walk limit origin environment [node] state [now] final := by
  have taken : Yields (anyStatement environment check node) state fun now final =>
      Taken limit origin (fun _ => False) node state final now :=
    yields_statement constructed walked.checks admitted ready.sound ready.untouched fun _ =>
      False.elim
  obtain ⟨kind, known, admits⟩ := admitted
  have visits : Visits limit origin (fun _ => False) node kind [] kind.children state state :=
    .begin constructed known ready.sound ready.untouched
  cases nested : kind.isNested with
  | false =>
      refine taken.ran.weaken ?_
      rintro now final ⟨taken, ran⟩
      exact ⟨taken, .leaf check known nested admits ready ran taken .nil⟩
  | true =>
      have inner : Yields (anyStatement environment check node) state fun now final =>
          now = node ∧ (Passed limit origin [node] state final →
            Walk limit origin environment [node] state [node] final) := by
        unfold anyStatement
        rw [yields_bind, yields_kind, visits.node_same.1]
        cases kind with
        | body statements =>
            simp only
            rw [yields_bind]
            refine (yields_walk_body constructed walked (Nat.le_refl _) ⟨_, known, rfl⟩
              ready).weaken ?_
            rintro _ final ⟨-, walk⟩
            exact ⟨rfl, fun _ => walk⟩
        | condition condition thenBody elseBody =>
            refine (yields_walk_condition walked (Nat.le_refl _) visits).weaken ?_
            rintro _ final ⟨first, second, rfl, asked, askedWork, thenWalk, elseWalk⟩
            exact ⟨rfl, fun work =>
              .condition known ready asked askedWork thenWalk elseWalk work .nil⟩
        | loop condition block =>
            simp only
            rw [yields_bind]
            refine (yields_walk_loop walked (Nat.le_refl _) visits).weaken ?_
            rintro _ final ⟨first, second, asked, askedWork, walk, rfl⟩
            exact ⟨rfl, fun work => .loop known ready asked askedWork walk work .nil⟩
        | _ => cases nested
      refine (taken.and inner).weaken ?_
      rintro _ final ⟨taken, rfl, walk⟩
      exact ⟨taken, walk taken.work⟩

theorem walked_within (constructed : origin.Constructed limit) (budget : Nat) :
    Walked limit origin environment budget (statementWithin environment budget) := by
  induction budget with
  | zero => exact fun node _ bound => absurd bound (Nat.not_lt_zero _)
  | succ budget ih =>
      intro node state bound admitted ready
      have walked : Walked limit origin environment node.index
          (statementWithin environment budget) := fun child state below => ih child state (by omega)
      exact yields_walk_statement constructed walked admitted ready

theorem yields_walk_whole (constructed : origin.Constructed limit)
    (admitted : origin.arena.Admitted .body node) (ready : Ready limit origin node state) :
    Yields (wholeBody environment node) state fun _ final =>
      Walk limit origin environment [node] state [node] final := by
  unfold wholeBody
  rw [yields_bind, yields_get]
  obtain ⟨kind, found, -⟩ := id admitted
  have bound := Arena.kind_bound found
  have size : origin.arena.size ≤ state.tree.arena.size := ready.sound.size
  have within : node.index ≤ state.tree.arena.size + 1 := by omega
  exact (yields_walk_body constructed (walked_within constructed _) within admitted ready).weaken
    fun _ _ both => both.2

end Rules

section Modules

variable {root : NodeId} {modules imports functions passed left : List NodeId}
  {signed current : InferenceState}

/-- The way through the bodies of functions, each entered with its parameters. -/
inductive Rounds (limit : Position) (origin : SourceTree) (environment : Environment)
    (functions : List NodeId) (signed : InferenceState) :
    List NodeId → InferenceState → InferenceState → Prop
  | nil {state} : Rounds limit origin environment functions signed [] state state
  | next {function result name parameters block passed rest before declared after final}
      (known : origin.arena.kind? function = some (.function result name parameters block))
      (advanced : Advanced limit origin environment.host functions passed (function :: rest) signed
        before)
      (entry : Ran (parameters.forM declareParameter) (entered before result) ⟨⟩ declared)
      (noted : Noted limit origin (fun id => id ∈ parameters) (entered before result) declared)
      (ready : Ready limit origin block declared)
      (walk : Walk limit origin environment [block] declared [block] after)
      (work : Passed limit origin [block] declared after)
      (later : Rounds limit origin environment functions signed rest after final) :
      Rounds limit origin environment functions signed (function :: rest) before final

theorem yields_round {function : NodeId}
    (prepared : Prepared limit origin environment.host root modules imports functions
      (.initial origin) signed)
    (advanced : Advanced limit origin environment.host functions passed (function :: left) signed
      current) :
    Yields (Inference.function environment function) current fun _ after =>
      ∀ final, Rounds limit origin environment functions signed left after final →
        Rounds limit origin environment functions signed (function :: left) current final := by
  have constructed := prepared.constructed
  have member : function ∈ functions := by simp [← advanced.whole]
  obtain ⟨result, name, parameters, block, found⟩ :=
    function_kind constructed prepared.found member
  have admitted := constructed.admitted found (.body, block) (by simp [NodeKind.slots])
  have kind : current.kind? function = some (.function result name parameters block) :=
    (prepared.above_same advanced (Or.inr (prepared.child member))).1.trans found
  unfold Inference.function
  rw [yields_bind, yields_kind, kind]
  simp only
  rw [yields_bind]
  refine (yields_enter result current).weaken ?_
  rintro _ _ rfl
  rw [yields_bind]
  refine (prepared.yields_entered advanced found).ran.weaken ?_
  rintro _ declared ⟨⟨noted, untouched⟩, entry⟩
  have ready : Ready limit origin block declared := ⟨noted.sound, untouched⟩
  have work : Yields (wholeBody environment block) declared fun _ final =>
      Passed limit origin [block] declared final :=
    yields_whole_body constructed admitted ready.sound ready.untouched fun _ => False.elim
  refine (work.and (yields_walk_whole constructed admitted ready)).weaken ?_
  rintro _ after ⟨work, walk⟩ final later
  exact .next found advanced entry noted ready walk work later

theorem yields_rounds
    (prepared : Prepared limit origin environment.host root modules imports functions
      (.initial origin) signed) (sound : Sound limit origin signed) :
    Yields (functions.forM (Inference.function environment)) signed fun _ final =>
      Advanced limit origin environment.host functions functions [] signed final ∧
      Rounds limit origin environment functions signed functions signed final := by
  refine (yields_forM (Inference.function environment) (fun left current => ∃ passed,
    Advanced limit origin environment.host functions passed left signed current ∧
    ∀ final, Rounds limit origin environment functions signed left current final →
      Rounds limit origin environment functions signed functions signed final) ?_ functions signed
    ⟨[], ⟨rfl, sound, .nil _ prepared.work.sound, nofun⟩, fun _ => id⟩).weaken ?_
  · rintro function left current ⟨passed, advanced, earlier⟩
    refine ((yields_function prepared advanced).and (yields_round prepared advanced)).weaken ?_
    rintro _ after ⟨advanced, round⟩
    exact ⟨_, advanced, fun final later => earlier final (round final later)⟩
  · rintro _ final ⟨passed, advanced, earlier⟩
    have whole := advanced.whole
    rw [List.append_nil] at whole
    subst whole
    exact ⟨advanced, earlier final .nil⟩

/-- The course of inference through a whole module. -/
structure Course (limit : Position) (origin : SourceTree) (fileName : String) (host : Host)
    (root : NodeId) (modules imports functions : List NodeId) (signatures : List Signature)
    (signed final : InferenceState) : Prop where
  prepared : Prepared limit origin host root modules imports functions (.initial origin) signed
  sound : Sound limit origin signed
  ran : Ran (functions.mapM (signature ⟨fileName, host, []⟩)) (.initial origin) signatures signed
  advanced : Advanced limit origin host functions functions [] signed final
  rounds : Rounds limit origin ⟨fileName, host, signatures⟩ functions signed functions signed final

theorem Course.inferred {fileName : String} {host : Host} {signatures : List Signature}
    {final : InferenceState}
    (course : Course limit origin fileName host root modules imports functions signatures signed
      final) : Inferred limit origin host root modules imports functions final :=
  inferred_of_advanced course.prepared course.advanced

theorem yields_course (constructed : origin.Constructed limit)
    (found : origin.arena.kind? root = some (.root modules imports functions)) (fileName : String)
    (host : Host) :
    Yields (wholeModule fileName host root) (.initial origin) fun _ final => ∃ signatures signed,
      Course limit origin fileName host root modules imports functions signatures signed final := by
  have kind : (InferenceState.initial origin).kind? root = some (.root modules imports functions) :=
    found
  unfold wholeModule
  rw [yields_bind, yields_kind, kind]
  simp only
  rw [yields_bind]
  refine (yields_prepared constructed found fileName host).ran.weaken ?_
  rintro signatures signed ⟨⟨prepared, sound⟩, ran⟩
  have bodies : Yields (functions.forM (Inference.function ⟨fileName, host, signatures⟩)) signed
      fun _ final => Advanced limit origin host functions functions [] signed final ∧
        Rounds limit origin ⟨fileName, host, signatures⟩ functions signed functions signed final :=
    yields_rounds prepared sound
  refine bodies.weaken ?_
  rintro _ final ⟨advanced, rounds⟩
  exact ⟨signatures, signed, prepared, sound, ran, advanced, rounds⟩

end Modules

end Inference

namespace SourceTree

variable {limit : Position} {origin : SourceTree} {root : NodeId}
  {modules imports functions : List NodeId}

theorem yields_infer_types_course (constructed : origin.Constructed limit)
    (found : origin.arena.kind? root = some (.root modules imports functions)) (fileName : String)
    (host : Host) :
    Yields (inferTypes fileName host root) origin fun diagnostics tree =>
      ∃ signatures signed final, Inference.Course limit origin fileName host root modules imports
        functions signatures signed final ∧ final.tree = tree ∧ final.diagnostics = diagnostics := by
  obtain ⟨value, final, ran, signatures, signed, course⟩ :=
    yields_iff.mp (Inference.yields_course constructed found fileName host)
  refine yields_iff.mpr ⟨final.diagnostics, final.tree, ?_, signatures, signed, final, course, rfl,
    rfl⟩
  change Inference.diagnose _ origin = _
  unfold Inference.diagnose
  rw [ran]

end SourceTree

end ModuleLang
