import ModuleLang.Proofs.Typing.Places
import ModuleLang.Proofs.Typing.Recording

/-!
Moments of inference. At a moment some statements of a body are left, with the frames of
all bodies around it open. A moment is arrived at from an earlier one by checking the next
statement, or by entering a body of that statement; whatever is checked next is still as it
was parsed, and the names that were visible earlier are visible.
-/

namespace ModuleLang.Inference

/-- Where inference is between two statements. -/
structure Moment where
  /-- Levels of statements that may be checked yet. -/
  budget : Nat
  /-- The statements of the innermost body that are not checked yet. -/
  left : List NodeId
  state : InferenceState

section Ways

variable (environment : Environment)

/-- A body of a statement is entered, after what comes before it in the statement. -/
inductive Enters (check : NodeId → Inference NodeId) (node : NodeId) (before : InferenceState) :
    NodeId → InferenceState → Prop
  | body {statements} (held : before.kind? node = some (.body statements)) :
      Enters check node before node before
  | thenBody {condition thenBody elseBody after}
      (held : before.kind? node = some (.condition condition thenBody elseBody))
      (asked : Ran (predicate environment condition) before ⟨⟩ after) :
      Enters check node before thenBody after
  | elseBody {condition thenBody elseBody middle after}
      (held : before.kind? node = some (.condition condition thenBody (some elseBody)))
      (asked : Ran (predicate environment condition) before ⟨⟩ middle)
      (passed : Ran (body check thenBody) middle ⟨⟩ after) :
      Enters check node before elseBody after
  | loop {condition block after} (held : before.kind? node = some (.loop condition block))
      (asked : Ran (predicate environment condition) before ⟨⟩ after) :
      Enters check node before block (deeper after)

/-- Inference arrives at a moment after an earlier one, in the same body or in one inside. -/
inductive Arrives : Moment → Moment → Prop
  | here {moment} : Arrives moment moment
  | next {budget node rest before now after moment}
      (ran : Ran (statementWithin environment budget node) before now after)
      (later : Arrives ⟨budget, rest, after⟩ moment) : Arrives ⟨budget, node :: rest, before⟩ moment
  | inside {budget node rest before block statements within moment}
      (enters : Enters environment (statementWithin environment budget) node before block within)
      (held : within.kind? block = some (.body statements))
      (later : Arrives ⟨budget, statements, opened within⟩ moment) :
      Arrives ⟨budget + 1, node :: rest, before⟩ moment

end Ways

variable {limit : Position} {origin : SourceTree} {environment : Environment}

/-- What is left at a moment is still as it was parsed. -/
structure Upcoming (limit : Position) (origin : SourceTree) (moment : Moment) : Prop where
  sound : Sound limit origin moment.state
  untouched : Untouched origin (Below origin moment.left) moment.state
  siblings : Siblings origin moment.left
  admitted : ∀ statement ∈ moment.left, origin.arena.Admitted .statement statement
  bounded : ∀ statement ∈ moment.left, statement.index < moment.budget

/-- A body whose turn has come among the children of its statement. -/
theorem Visits.block_ready {node block : NodeId} {kind : NodeKind NodeId} {done rest : List NodeId}
    {before state : InferenceState} {budget : Nat}
    (visits : Visits limit origin (fun _ => False) node kind done (block :: rest) before state)
    (slot : (Category.body, block) ∈ kind.slots) (low : node.index ≤ budget) :
    Ready limit origin block state ∧ origin.arena.Admitted .body block ∧ block.index ≤ budget := by
  have below : block.index < node.index :=
    visits.below_index (List.mem_append_right done List.mem_cons_self)
  exact ⟨visits.next_ready, visits.constructed.admitted visits.found _ slot,
    Nat.le_trans (Nat.le_of_lt below) low⟩

namespace Upcoming

variable {budget : Nat} {node block : NodeId} {rest : List NodeId} {before after : InferenceState}

theorem ready (upcoming : Upcoming limit origin ⟨budget, node :: rest, before⟩) :
    Ready limit origin node before :=
  ⟨upcoming.sound, upcoming.untouched.part fun _ inside => below_cons.mpr (Or.inl inside)⟩

/-- The next statement is checked. -/
theorem next (constructed : origin.Constructed limit)
    (upcoming : Upcoming limit origin ⟨budget, node :: rest, before⟩) {now : NodeId}
    (ran : Ran (statementWithin environment budget node) before now after) :
    Upcoming limit origin ⟨budget, rest, after⟩ ∧
      Impact environment.Readable environment.host origin before after := by
  have walked : Walked limit origin environment budget (statementWithin environment budget) :=
    walked_within constructed budget
  rcases (walked node before (upcoming.bounded node List.mem_cons_self)
    (upcoming.admitted node List.mem_cons_self) upcoming.ready).of_ran ran with ⟨taken, walk⟩
  refine ⟨⟨taken.work.sound, ?_, upcoming.siblings.tail, ?_, ?_⟩, walk.impact constructed⟩
  · have part : Untouched origin (Below origin rest) before :=
      upcoming.untouched.part fun _ inside => below_cons.mpr (Or.inr inside)
    refine part.later taken.work.leaves (fun id inside => ?_) fun id inside below => ?_
    · exact Nat.lt_of_lt_of_le
        (upcoming.siblings.bounded constructed (below_cons.mpr (Or.inr inside))) upcoming.sound.size
    · exact upcoming.siblings.apart constructed below inside
  · exact fun statement member => upcoming.admitted statement (List.mem_cons_of_mem _ member)
  · exact fun statement member => upcoming.bounded statement (List.mem_cons_of_mem _ member)

/-- A body is ready when it is entered. -/
theorem entered (constructed : origin.Constructed limit)
    (upcoming : Upcoming limit origin ⟨budget + 1, node :: rest, before⟩)
    (enters : Enters environment (statementWithin environment budget) node before block after) :
    (Ready limit origin block after ∧ origin.arena.Admitted .body block ∧ block.index ≤ budget) ∧
      Impact environment.Readable environment.host origin before after := by
  have ready := upcoming.ready
  have low : node.index ≤ budget :=
    Nat.le_of_lt_succ (upcoming.bounded node List.mem_cons_self)
  have walked : Walked limit origin environment budget (statementWithin environment budget) :=
    walked_within constructed budget
  cases enters with
  | body held =>
      rw [ready.kind] at held
      exact ⟨⟨ready, ⟨_, held, rfl⟩, low⟩, impact_chain.refl _⟩
  | @thenBody condition _ elseBody _ held asked =>
      rw [ready.kind] at held
      have visits : Visits limit origin (fun _ => False) node (.condition condition block elseBody)
          [] (condition :: block :: elseBody.toList) before before :=
        .begin constructed held ready.sound ready.untouched
      rcases (yields_walk_predicate visits (by simp [NodeKind.slots])).of_ran asked with ⟨visits, -⟩
      exact ⟨visits.block_ready (by simp [NodeKind.slots]) low,
        impact_of_condition constructed held (by simp [NodeKind.slots]) ready asked⟩
  | @elseBody condition thenBody _ middle _ held asked passed =>
      rw [ready.kind] at held
      have visits : Visits limit origin (fun _ => False) node
          (.condition condition thenBody (some block)) [] [condition, thenBody, block] before
          before := .begin constructed held ready.sound ready.untouched
      rcases (yields_walk_predicate visits (by simp [NodeKind.slots])).of_ran asked with ⟨visits, -⟩
      rcases (yields_walk_block (fun child state below => walked child state (by omega))
        (Nat.le_refl _) visits (by simp [NodeKind.slots])).of_ran passed with ⟨visits, walk⟩
      exact ⟨visits.block_ready (by simp [NodeKind.slots]) low, impact_chain.trans
        (impact_of_condition constructed held (by simp [NodeKind.slots]) ready asked)
        (walk.impact constructed)⟩
  | @loop condition _ middle held asked =>
      rw [ready.kind] at held
      have visits : Visits limit origin (fun _ => False) node (.loop condition block) []
          [condition, block] before before := .begin constructed held ready.sound ready.untouched
      rcases (yields_walk_predicate visits (by simp [NodeKind.slots])).of_ran asked with ⟨visits, -⟩
      have deepened : Noted limit origin (fun _ => False) middle (deeper middle) :=
        noted_of_scopes visits.sound rfl rfl rfl fun _ member => Or.inl member
      have impact := impact_of_condition constructed held (by simp [NodeKind.slots]) ready asked
      exact ⟨(visits.noted deepened).block_ready (by simp [NodeKind.slots]) low,
        impact.outer, impact.visible, impact.duplicates, impact.reported, impact.recorded⟩

end Upcoming

/-- The statements of a body are left when its frame is opened. -/
theorem upcoming_of_body (constructed : origin.Constructed limit) {budget : Nat} {block : NodeId}
    {statements : List NodeId} {state : InferenceState} (ready : Ready limit origin block state)
    (low : block.index ≤ budget) (held : state.kind? block = some (.body statements)) :
    Upcoming limit origin ⟨budget, statements, opened state⟩ := by
  rw [ready.kind] at held
  have slots : ∀ statement ∈ statements, statement ∈ origin.arena.children block := by
    intro statement member
    exact Arena.child_of_kind held member
  have pushed : Noted limit origin (fun _ => False) state (opened state) :=
    noted_of_scopes ready.sound rfl rfl rfl fun _ member => Or.inl (Scopes.nodes_push member)
  refine ⟨pushed.sound, ?_, siblings_of_kind held (List.Sublist.refl _), ?_, ?_⟩
  · have part : Untouched origin (Below origin statements) state := by
      apply ready.untouched.part
      rintro id ⟨statement, member, path⟩
      exact below_singleton.mpr (.below_child (slots statement member) path)
    exact ⟨part.kind, part.span, fun id inside member =>
      part.unbound id inside (Scopes.nodes_push member)⟩
  · exact fun statement member => constructed.admitted held (.statement, statement)
      (by simp [NodeKind.slots, member])
  · exact fun statement member =>
      Nat.lt_of_lt_of_le (constructed.forest.below (slots statement member)) low

/-- What is left at a later moment, what is visible then, and what is recorded of it. -/
theorem Arrives.upcoming (constructed : origin.Constructed limit) {start moment : Moment}
    (arrives : Arrives environment start moment) (upcoming : Upcoming limit origin start) :
    Upcoming limit origin moment ∧
      (∀ name, (start.state.scopes.lookup name).isSome = true →
        (moment.state.scopes.lookup name).isSome = true) ∧
      (environment.Readable → Recorded environment.host origin start.state →
        Recorded environment.host origin moment.state) := by
  induction arrives with
  | here => exact ⟨upcoming, fun _ seen => seen, fun _ recorded => recorded⟩
  | next ran _ ih =>
      rcases upcoming.next constructed ran with ⟨upcoming, impact⟩
      rcases ih upcoming with ⟨upcoming, visible, recorded⟩
      exact ⟨upcoming, fun name seen => visible name (Scopes.lookup_of_suffix impact.visible seen),
        fun readable known => recorded readable (impact.recorded readable known)⟩
  | inside enters held _ ih =>
      rcases upcoming.entered constructed enters with ⟨⟨ready, -, low⟩, impact⟩
      rcases ih (upcoming_of_body constructed ready low held) with ⟨upcoming, visible, recorded⟩
      exact ⟨upcoming, fun name seen => visible name (Scopes.lookup_of_suffix impact.visible seen),
        fun readable known => recorded readable (impact.recorded readable known)⟩

section Modules

variable (fileName : String) (host : Host) (root : NodeId) (tree : SourceTree)

/-- The signatures of a module are known, some functions are done with, and others are
left. -/
inductive Comes : Environment → List NodeId → InferenceState → Prop
  | intro {modules imports passed left signatures signed state}
      (found : tree.arena.kind? root = some (.root modules imports (passed ++ left)))
      (signs : Ran ((passed ++ left).mapM (signature ⟨fileName, host, []⟩)) (.initial tree)
        signatures signed)
      (earlier : Ran (passed.forM (Inference.function ⟨fileName, host, signatures⟩)) signed ⟨⟩
        state) : Comes ⟨fileName, host, signatures⟩ left state

/-- The body of a function begins, with its parameters declared around it. -/
inductive Begins : Environment → Moment → Prop
  | intro {environment function left before result name parameters block declared statements}
      (comes : Comes fileName host root tree environment (function :: left) before)
      (known : before.kind? function = some (.function result name parameters block))
      (declares : Ran (parameters.forM declareParameter) (entered before result) ⟨⟩ declared)
      (held : declared.kind? block = some (.body statements)) :
      Begins environment ⟨declared.size + 1, statements, opened declared⟩

variable {fileName : String} {host : Host} {root : NodeId} {tree : SourceTree}
  {modules imports functions passed more left : List NodeId}
  {start signed current final : InferenceState}

/-- What each function keeps holds after some functions. -/
theorem advanced_of_ran {holds : InferenceState → Prop}
    (prepared : Prepared limit tree environment.host root modules imports functions start signed)
    (each : ∀ {passed function left current after},
      Advanced limit tree environment.host functions passed (function :: left) signed current →
      Ran (Inference.function environment function) current ⟨⟩ after → holds after)
    (advanced : Advanced limit tree environment.host functions passed (more ++ left) signed current)
    (held : holds current)
    (ran : Ran (more.forM (Inference.function environment)) current ⟨⟩ final) :
    Advanced limit tree environment.host functions (passed ++ more) left signed final ∧
      holds final := by
  induction more generalizing passed current with
  | nil =>
      cases ran
      rw [List.append_nil]
      exact ⟨advanced, held⟩
  | cons function more ih =>
      have split : Ran (Inference.function environment function >>= fun _ =>
          more.forM (Inference.function environment)) current ⟨⟩ final := ran
      rcases ran_bind.mp split with ⟨_, after, first, ran⟩
      have later := (yields_function prepared advanced).of_ran first
      have whole := ih later (each advanced first) ran
      rw [List.append_assoc, List.singleton_append] at whole
      exact whole

/-- The next body of a function is ready once its parameters are declared. -/
theorem Prepared.body_ready
    (prepared : Prepared limit tree host root modules imports functions start signed)
    {function block : NodeId} {result : Option NodeId} {name : String} {parameters : List NodeId}
    (advanced : Advanced limit tree host functions passed (function :: left) signed current)
    (known : current.kind? function = some (.function result name parameters block))
    {declared : InferenceState}
    (declares : Ran (parameters.forM declareParameter) (entered current result) ⟨⟩ declared) :
    Ready limit tree block declared ∧ tree.arena.Admitted .body block := by
  have member : function ∈ functions := by simp [← advanced.whole]
  have found : tree.arena.kind? function = some (.function result name parameters block) :=
    (prepared.above_same advanced (Or.inr (prepared.child member))).1.symm.trans known
  rcases (prepared.yields_entered advanced found).of_ran declares with ⟨noted, untouched⟩
  exact ⟨⟨noted.sound, untouched⟩,
    prepared.constructed.admitted found (.body, block) (by simp [NodeKind.slots])⟩

theorem Comes.advanced (constructed : tree.Constructed limit)
    (comes : Comes fileName host root tree environment left current) :
    ∃ modules imports functions passed signed,
      Prepared limit tree host root modules imports functions (.initial tree) signed ∧
      Advanced limit tree host functions passed left signed current := by
  rcases comes with ⟨found, signs, earlier⟩
  rename_i modules imports passed signatures signed
  rcases (yields_prepared constructed found fileName host).of_ran signs with ⟨prepared, sound⟩
  have advanced : Advanced limit tree host (passed ++ left) [] (passed ++ left) signed signed :=
    ⟨rfl, sound, .nil _ prepared.work.sound, List.forall_mem_nil _⟩
  have whole : Advanced limit tree host (passed ++ left) ([] ++ passed) left signed current ∧ True :=
    advanced_of_ran prepared (fun _ _ => trivial) advanced trivial earlier
  exact ⟨modules, imports, passed ++ left, passed, signed, prepared, whole.1⟩

/-- The statements of a function are left when its body begins. -/
theorem Begins.upcoming (constructed : tree.Constructed limit) {moment : Moment}
    (begins : Begins fileName host root tree environment moment) :
    Upcoming limit tree moment := by
  rcases begins with ⟨comes, known, declares, held⟩
  rename_i function left before result name parameters block declared statements
  rcases comes.advanced constructed with ⟨_, _, _, _, _, prepared, advanced⟩
  rcases prepared.body_ready advanced known declares with ⟨ready, kind, found, -⟩
  have size : tree.arena.size ≤ declared.size := ready.sound.size
  have bound : block.index < tree.arena.size := Arena.kind_bound found
  exact upcoming_of_body constructed ready (by omega) held

/-- The beginning of the first function of a module. -/
def begun? (host : Host) (parsed : ParsedModule) : Option (Environment × Moment) :=
  match parsed.tree.arena.kind? parsed.root with
  | some (.root _ _ (function :: left)) =>
      match ((function :: left).mapM (signature ⟨parsed.fileName, host, []⟩)).run
          (.initial parsed.tree) with
      | .ok signatures signed =>
          match signed.kind? function with
          | some (.function result _ parameters block) =>
              match (parameters.forM declareParameter).run (entered signed result) with
              | .ok _ declared =>
                  match declared.kind? block with
                  | some (.body statements) =>
                      some (⟨parsed.fileName, host, signatures⟩,
                        ⟨declared.size + 1, statements, opened declared⟩)
                  | _ => none
              | .error _ _ => none
          | _ => none
      | .error _ _ => none
  | _ => none

/-- The moment behind some statements of one body. -/
def behind? (environment : Environment) : (count : Nat) → Moment → Option Moment
  | 0, moment => some moment
  | count + 1, ⟨budget, node :: rest, state⟩ =>
      match (statementWithin environment budget node).run state with
      | .ok _ after => behind? environment count ⟨budget, rest, after⟩
      | .error _ _ => none
  | _ + 1, ⟨_, [], _⟩ => none

theorem begins_of_begun {parsed : ParsedModule} {moment : Moment}
    (begun : begun? host parsed = some (environment, moment)) :
    Begins parsed.fileName host parsed.root parsed.tree environment moment := by
  unfold begun? at begun
  split at begun
  · rename_i modules imports function left found
    split at begun
    · rename_i signatures signed signs
      split at begun
      · rename_i result name parameters block known
        split at begun
        · rename_i declared declares
          split at begun
          · rename_i statements held
            cases begun
            have passed : Ran ([].forM (Inference.function ⟨parsed.fileName, host, signatures⟩))
                signed ⟨⟩ signed := rfl
            have all : Ran (([] ++ function :: left).mapM (signature ⟨parsed.fileName, host, []⟩))
                (.initial parsed.tree) signatures signed := signs
            have comes : Comes parsed.fileName host parsed.root parsed.tree
                ⟨parsed.fileName, host, signatures⟩ (function :: left) signed :=
              .intro found all passed
            exact .intro comes known declares held
          · cases begun
        · cases begun
      · cases begun
    · cases begun
  · cases begun

theorem arrives_of_behind {count : Nat} {first moment : Moment}
    (behind : behind? environment count first = some moment) :
    Arrives environment first moment := by
  induction count generalizing first with
  | zero =>
      cases behind
      exact .here
  | succ count ih =>
      rcases first with ⟨budget, nodes, state⟩
      cases nodes with
      | nil => cases behind
      | cons node rest =>
          unfold behind? at behind
          split at behind
          · rename_i now after ran
            exact .next ran (ih behind)
          · cases behind

/-- The moments before and behind a statement of the first function. -/
def around? (host : Host) (parsed : ParsedModule) (count : Nat) :
    Option (Environment × Moment × Moment) := do
  let (environment, start) ← begun? host parsed
  let moment ← behind? environment count start
  let later ← behind? environment 1 moment
  return (environment, moment, later)

theorem ran_of_behind {moment later : Moment} (behind : behind? environment 1 moment = some later) :
    ∃ statement rest now, moment = ⟨moment.budget, statement :: rest, moment.state⟩ ∧
      later = ⟨moment.budget, rest, later.state⟩ ∧
      Ran (statementWithin environment moment.budget statement) moment.state now later.state := by
  rcases moment with ⟨budget, nodes, state⟩
  cases nodes with
  | nil => cases behind
  | cons statement rest =>
      unfold behind? at behind
      split at behind
      · rename_i now after ran
        cases behind
        exact ⟨statement, rest, now, rfl, rfl, ran⟩
      · cases behind

theorem moments_of_around {parsed : ParsedModule} {count : Nat} {moment later : Moment}
    (found : around? host parsed count = some (environment, moment, later)) :
    (∃ start, Begins parsed.fileName host parsed.root parsed.tree environment start ∧
      Arrives environment start moment) ∧
    ∃ statement rest now, moment = ⟨moment.budget, statement :: rest, moment.state⟩ ∧
      later = ⟨moment.budget, rest, later.state⟩ ∧
      Ran (statementWithin environment moment.budget statement) moment.state now later.state := by
  rcases Option.bind_eq_some_iff.mp found with ⟨⟨environment, start⟩, begun, found⟩
  rcases Option.bind_eq_some_iff.mp found with ⟨moment, reached, found⟩
  rcases Option.bind_eq_some_iff.mp found with ⟨later, passed, found⟩
  cases found
  exact ⟨⟨start, begins_of_begun begun, arrives_of_behind reached⟩, ran_of_behind passed⟩

end Modules

end ModuleLang.Inference
