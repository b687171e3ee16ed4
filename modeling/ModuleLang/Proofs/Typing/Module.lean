import ModuleLang.Proofs.Typing.Body
import ModuleLang.Typing.Inference.Module

/-!
Whole modules. The nodes of a function's signature are worked on before all
bodies, and then one body after the other, so the work is cut along the children
of all functions. What is left above the cut stays as it was parsed.
-/

namespace ModuleLang

namespace Arena

/-- The nodes of the signature of a function. -/
def heads (arena : Arena) (function : NodeId) : List NodeId :=
  match arena.kind? function with
  | some (.function result _ parameters _) => result.toList ++ parameters
  | _ => []

/-- The body of a function. -/
def blocks (arena : Arena) (function : NodeId) : List NodeId :=
  match arena.kind? function with
  | some (.function _ _ _ block) => [block]
  | _ => []

theorem head_is_child {arena : Arena} {function node : NodeId}
    (member : node ∈ arena.heads function) : node ∈ arena.children function := by
  unfold heads at member
  split at member
  · rename_i found
    rw [children_of_kind found, NodeKind.children]
    exact List.mem_append_left _ member
  · cases member

theorem block_is_child {arena : Arena} {function node : NodeId}
    (member : node ∈ arena.blocks function) : node ∈ arena.children function := by
  unfold blocks at member
  split at member
  · rename_i found
    rw [children_of_kind found, NodeKind.children]
    exact List.mem_append_right _ member
  · cases member

/-- The children of a function are its signature and its body. -/
theorem head_or_block {arena : Arena} {function node : NodeId} {result : Option NodeId}
    {name : String} {parameters : List NodeId} {block : NodeId}
    (found : arena.kind? function = some (.function result name parameters block))
    (member : node ∈ arena.children function) :
    node ∈ arena.heads function ∨ node ∈ arena.blocks function := by
  rw [children_of_kind found, NodeKind.children] at member
  unfold heads blocks
  rw [found]
  exact List.mem_append.mp member

namespace Forest

variable {arena : Arena} (forest : arena.Forest)

include forest

theorem head_ne_block {function head block : NodeId} (left : head ∈ arena.heads function)
    (right : block ∈ arena.blocks function) : head ≠ block := by
  have distinct := forest.distinct function
  unfold heads at left
  unfold blocks at right
  split at left
  · rename_i found
    rw [found] at right
    rw [children_of_kind found, NodeKind.children] at distinct
    exact (List.nodup_append.mp distinct).2.2 head left block right
  · cases left

/-- Children of the children of one node have nothing below them in common. -/
theorem cousins_disjoint {root left right first second node : NodeId}
    (leftChild : left ∈ arena.children root) (rightChild : right ∈ arena.children root)
    (firstChild : first ∈ arena.children left) (secondChild : second ∈ arena.children right)
    (belowFirst : arena.Reachable first node) (belowSecond : arena.Reachable second node) :
    left = right ∧ first = second := by
  have same := forest.siblings_disjoint leftChild rightChild
    (.below_child firstChild belowFirst) (.below_child secondChild belowSecond)
  subst same
  exact ⟨rfl, forest.siblings_disjoint firstChild secondChild belowFirst belowSecond⟩

/-- Neither a node nor one of its children lies below a child of its children. -/
theorem above_grandchild {root function child node : NodeId}
    (functionChild : function ∈ arena.children root) (inside : child ∈ arena.children function)
    (above : node = root ∨ node ∈ arena.children root) : ¬ arena.Reachable child node := by
  intro below
  obtain rfl | sibling := above
  · have first := forest.index_le below
    have second := forest.below inside
    have third := forest.below functionChild
    omega
  · have same := forest.siblings_disjoint functionChild sibling (.below_child inside below) .refl
    subst same
    exact forest.parent_not_below inside below

end Forest

end Arena

namespace Inference

variable {limit : Position} {origin : SourceTree} {results : Option Ty → Prop}
  {environment : Environment}

section Signatures

variable {node child : NodeId} {kind : NodeKind NodeId} {done rest : List NodeId}
  {before state : InferenceState}

theorem yields_visit_parameter
    (visits : Visits limit origin results node kind done (child :: rest) before state)
    (slot : (Category.parameter, child) ∈ kind.slots) :
    Yields (parameterType environment child) state fun _ final =>
      Visits limit origin results node kind (done ++ [child]) rest before final ∧
      (∀ earlier ∈ done, final.type? earlier = state.type? earlier) ∧
      (final.Clean → state.Clean) := by
  obtain ⟨inner, found, admits⟩ := visits.constructed.admitted visits.found _ slot
  cases inner with
  | parameter written name =>
      have inner : Visits limit origin results child (.parameter written name) [] [written] state
          state := .begin visits.constructed found visits.sound visits.next_untouched
      unfold parameterType
      rw [yields_bind, yields_kind, inner.node_same.1]
      simp only
      rw [yields_bind]
      refine (yields_visit_type inner (by simp [NodeKind.slots])).weaken ?_
      rintro type resolved ⟨inner, -⟩
      rw [yields_bind]
      have judged : Judged limit origin results child (.parameter written name) type state resolved :=
        judged_plain inner fun _ => trivial
      refine (yields_typed judged).weaken ?_
      rintro _ final ⟨work, -⟩
      exact ⟨visits.next work, visits.types_kept work, work.leaves.clean⟩
  | _ => cases admits

theorem yields_visit_parameters {parameters : List NodeId}
    (visits : Visits limit origin results node kind done (parameters ++ rest) before state)
    (slots : ∀ parameter ∈ parameters, (Category.parameter, parameter) ∈ kind.slots) :
    Yields (parameters.mapM (parameterType environment)) state fun _ final =>
      Visits limit origin results node kind (done ++ parameters) rest before final ∧
      (∀ earlier ∈ done, final.type? earlier = state.type? earlier) ∧
      (final.Clean → state.Clean) := by
  refine (yields_mapM (parameterType environment) (fun _ left current => ∃ passed,
    passed ++ left = parameters ∧
    Visits limit origin results node kind (done ++ passed) (left ++ rest) before current ∧
    (∀ earlier ∈ done, current.type? earlier = state.type? earlier) ∧
    (current.Clean → state.Clean)) ?_ parameters [] state
    ⟨[], rfl, by simpa using visits, fun _ _ => rfl, id⟩).weaken ?_
  · rintro found head tail current ⟨passed, whole, visits, kept, cleaner⟩
    have slot : (Category.parameter, head) ∈ kind.slots := slots head (by simp [← whole])
    refine (yields_visit_parameter visits slot).weaken ?_
    rintro type final ⟨visits, types, cleans⟩
    refine ⟨passed ++ [head], ?_, ?_, ?_, fun clean => cleaner (cleans clean)⟩
    · rw [List.append_assoc, List.singleton_append]
      exact whole
    · rw [← List.append_assoc]
      exact visits
    · intro earlier member
      rw [types earlier (List.mem_append_left _ member)]
      exact kept earlier member
  · rintro types final ⟨passed, whole, finished, kept⟩
    rw [List.append_nil] at whole
    subst whole
    exact ⟨finished, kept⟩

/-- The signature of a function. What its result is declared to be is found, or an
error is reported. -/
theorem yields_signature {function : NodeId} {result : Option NodeId} {name : String}
    {parameters : List NodeId} {block : NodeId} (results : Option Ty → Prop)
    (constructed : origin.Constructed limit)
    (found : origin.arena.kind? function = some (.function result name parameters block))
    (sound : Sound limit origin state)
    (untouched : Untouched origin (Below origin [function]) state) :
    Yields (signature environment function) state fun _ final =>
      Worked limit origin results (origin.arena.heads function) state final ∧
      (final.Clean → ∀ written ∈ result,
        final.type? written = origin.arena.written? environment.host written) := by
  have visits : Visits limit origin results function (.function result name parameters block) []
      (result.toList ++ parameters ++ [block]) state state :=
    .begin constructed found sound untouched
  have heads : origin.arena.heads function = result.toList ++ parameters := by
    unfold Arena.heads
    rw [found]
  unfold signature
  rw [yields_bind, yields_kind, visits.node_same.1, heads]
  simp only
  rw [yields_bind]
  cases result with
  | none =>
      unfold resultType
      rw [yields_pure, yields_bind]
      refine (yields_visit_parameters visits (by simp +contextual [NodeKind.slots])).weaken ?_
      rintro types final ⟨visits, -⟩
      exact ⟨visits.work, by simp⟩
  | some written =>
      refine (yields_visit_type visits (by simp [NodeKind.slots])).weaken ?_
      rintro type resolved ⟨visits, -, -, known⟩
      rw [yields_bind]
      refine (yields_visit_parameters visits (by simp +contextual [NodeKind.slots])).weaken ?_
      rintro types final ⟨visits, kept, cleaner⟩
      refine ⟨visits.work, fun clean other member => ?_⟩
      cases member
      rw [kept written (by simp)]
      exact known (cleaner clean)

end Signatures

section Modules

variable {root : NodeId} {modules imports functions : List NodeId}

/-- The nodes of the signatures of some functions. -/
abbrev allHeads (origin : SourceTree) (functions : List NodeId) : List NodeId :=
  functions.flatMap origin.arena.heads

/-- The bodies of some functions. -/
abbrev allBlocks (origin : SourceTree) (functions : List NodeId) : List NodeId :=
  functions.flatMap origin.arena.blocks

/-- The results of functions are known as they are declared. -/
def Signed (origin : SourceTree) (host : Host) (functions : List NodeId) (state : InferenceState) :
    Prop :=
  ∀ function ∈ functions, ∀ result name parameters block,
    origin.arena.kind? function = some (.function result name parameters block) →
    ∀ written ∈ result, state.type? written = origin.arena.written? host written

theorem function_is_child (found : origin.arena.kind? root = some (.root modules imports functions))
    {function : NodeId} (member : function ∈ functions) : function ∈ origin.arena.children root := by
  rw [Arena.children_of_kind found, NodeKind.children]
  exact List.mem_append_right _ member

theorem function_kind (constructed : origin.Constructed limit)
    (found : origin.arena.kind? root = some (.root modules imports functions))
    {function : NodeId} (member : function ∈ functions) : ∃ result name parameters block,
      origin.arena.kind? function = some (.function result name parameters block) := by
  obtain ⟨kind, known, admits⟩ := constructed.admitted found (.function, function)
    (by simp [NodeKind.slots, member])
  cases kind with
  | function result name parameters block => exact ⟨result, name, parameters, block, known⟩
  | _ => cases admits

theorem below_child_bounded (constructed : origin.Constructed limit) {nodes : List NodeId}
    {id : NodeId} (known : ∀ node ∈ nodes, ∃ function, node ∈ origin.arena.children function)
    (inside : Below origin nodes id) : id.index < origin.arena.size := by
  refine below_bounded constructed ?_ inside
  intro node member
  obtain ⟨function, child⟩ := known node member
  obtain ⟨kind, found, -⟩ := Arena.kind_of_child child
  exact Nat.lt_trans (constructed.forest.below child) (Arena.kind_bound found)

theorem yields_signatures (results : Option Ty → Prop) (constructed : origin.Constructed limit)
    (found : origin.arena.kind? root = some (.root modules imports functions))
    (distinct : functions.Nodup) {state : InferenceState} (sound : Sound limit origin state)
    (untouched : Untouched origin (Below origin [root]) state) :
    Yields (functions.mapM (signature environment)) state fun _ final =>
      Worked limit origin results (allHeads origin functions) state final ∧
      (final.Clean → Signed origin environment.host functions final) := by
  have forest := constructed.forest
  have heads : ∀ some : List NodeId, ∀ node ∈ allHeads origin some,
      ∃ function ∈ some, node ∈ origin.arena.children function := by
    intro some node member
    obtain ⟨function, inside, head⟩ := List.mem_flatMap.mp member
    exact ⟨function, inside, Arena.head_is_child head⟩
  have apart : ∀ {passed left : List NodeId} {function : NodeId},
      passed ++ function :: left = functions → ∀ id, Below origin (allHeads origin passed) id →
      ¬ origin.arena.Reachable function id := by
    rintro passed left function whole id ⟨node, member, path⟩ below
    obtain ⟨earlier, inside, child⟩ := heads passed node member
    have same := forest.siblings_disjoint
      (function_is_child found (show earlier ∈ functions by simp [← whole, inside]))
      (function_is_child found (show function ∈ functions by simp [← whole]))
      (.below_child child path) below
    rw [← whole] at distinct
    exact (List.nodup_append.mp distinct).2.2 earlier inside function List.mem_cons_self same
  refine (yields_mapM (signature environment) (fun _ left current => ∃ passed,
    passed ++ left = functions ∧
    Worked limit origin results (allHeads origin passed) state current ∧
    (current.Clean → Signed origin environment.host passed current)) ?_ functions [] state
    ⟨[], rfl, .nil results sound, fun _ => nofun⟩).weaken ?_
  · rintro signatures function left current ⟨passed, whole, work, signed⟩
    have member : function ∈ functions := by simp [← whole]
    have child := function_is_child found member
    obtain ⟨result, name, parameters, block, kind⟩ := function_kind constructed found member
    have part : Untouched origin (Below origin [function]) state := untouched.part fun id inside => by
      rw [below_singleton] at *
      exact .below_child child inside
    have later : Untouched origin (Below origin [function]) current := by
      refine part.later work.leaves (fun id inside => ?_) fun id inside earlier => ?_
      · have bound := Arena.kind_bound kind
        exact Nat.lt_of_lt_of_le (below_bounded constructed (by simpa using bound) inside) sound.size
      · exact apart whole id earlier (below_singleton.mp inside)
    have within : ∀ id, Below origin (origin.arena.heads function) id →
        origin.arena.Reachable function id := by
      rintro id ⟨node, head, path⟩
      exact .below_child (Arena.head_is_child head) path
    refine (yields_signature results constructed kind work.sound later).weaken ?_
    rintro signature final ⟨more, declared⟩
    have all : allHeads origin (passed ++ [function]) =
        allHeads origin passed ++ origin.arena.heads function := by simp
    refine ⟨passed ++ [function], by simpa using whole, ?_, fun clean => ?_⟩
    · rw [all]
      refine work.append sound more (fun id => below_child_bounded constructed fun node head =>
        ⟨function, Arena.head_is_child head⟩) fun id earlier inside => ?_
      exact apart whole id earlier (within id inside)
    · intro other inside
      obtain earlier | last := List.mem_append.mp inside
      · intro result name parameters block known written member
        have head : written ∈ allHeads origin passed := by
          refine List.mem_flatMap.mpr ⟨other, earlier, ?_⟩
          unfold Arena.heads
          rw [known]
          exact List.mem_append_left _ (Option.mem_toList.mpr member)
        have below : Below origin (allHeads origin passed) written := ⟨written, head, .refl⟩
        have same := more.leaves.node written (work.settled.bounded (Or.inl below)) fun inside =>
          apart whole written below (within written inside)
        rw [InferenceState.type?, Arena.type_of_node same]
        exact signed (more.leaves.clean clean) other earlier result name parameters block known
          written member
      · rw [List.mem_singleton] at last
        subst last
        intro otherResult otherName otherParameters otherBlock known
        rw [kind] at known
        cases known
        exact declared clean
  · rintro signatures final ⟨passed, whole, work, signed⟩
    rw [List.append_nil] at whole
    rw [← whole]
    exact ⟨work, signed⟩

/-- A state without the function that is looked at. -/
def outside (state : InferenceState) : InferenceState :=
  { state with scopes := .empty, result := none }

theorem sound_outside {state : InferenceState} (sound : Sound limit origin state) :
    Sound limit origin (outside state) :=
  ⟨sound.size, sound.placed, (List.forall_mem_nil _), sound.reported, sound.rests⟩

/-- Work in a function, seen from outside of it. -/
theorem Worked.outside {fewer : Option Ty → Prop} {done : List NodeId}
    {before middle after : InferenceState} (work : Worked limit origin results done middle after)
    (tree : middle.tree = before.tree) (reports : before.diagnostics <+: middle.diagnostics)
    (subset : after.Clean → ∀ result, fewer result → results result) :
    Worked limit origin fewer done (outside before) (outside after) where
  sound := sound_outside work.sound
  leaves := by
    have size : middle.size = before.size := by
      unfold InferenceState.size
      rw [tree]
    refine ⟨?_, fun id old apart => ?_, fun id old apart => ?_, (List.forall_mem_nil _), rfl,
      reports.trans work.leaves.diagnostics⟩
    · exact Nat.le_trans (Nat.le_of_eq size.symm) work.leaves.size
    · have same := work.leaves.node id (Nat.lt_of_lt_of_eq old size.symm) apart
      rw [tree] at same
      exact same
    · have same := work.leaves.span id (Nat.lt_of_lt_of_eq old size.symm) apart
      unfold InferenceState.span? at same
      rw [tree] at same
      exact same
  settled := by
    have kept := (work.settled.fewer_results subset).of_same_tree
      (show (Inference.outside after).tree = after.tree from rfl) id
    refine kept.congr fun id => ?_
    unfold Covered Made InferenceState.size
    rw [tree]
    rfl
  spans := work.spans

/-- A module with all signatures worked on. -/
structure Prepared (limit : Position) (origin : SourceTree) (host : Host) (root : NodeId)
    (modules imports functions : List NodeId) (start signed : InferenceState) : Prop where
  constructed : origin.Constructed limit
  found : origin.arena.kind? root = some (.root modules imports functions)
  sound : Sound limit origin start
  fresh : start.tree = origin
  untouched : Untouched origin (Below origin [root]) start
  work : Worked limit origin (fun _ => False) (allHeads origin functions) start (outside signed)
  declared : signed.Clean → Signed origin host functions signed

/-- Bodies that are worked on, after the signatures. -/
structure Advanced (limit : Position) (origin : SourceTree) (host : Host)
    (functions passed left : List NodeId) (signed current : InferenceState) : Prop where
  whole : passed ++ left = functions
  sound : Sound limit origin current
  work : Worked limit origin (fun _ => False) (allBlocks origin passed) (outside signed)
    (outside current)
  returns : ∀ function ∈ passed, ∀ result name parameters block,
    origin.arena.kind? function = some (.function result name parameters block) →
    ∃ region : Region, region block ∧
      (∀ id, region id → id.index < origin.arena.size → origin.arena.Reachable block id) ∧
      Settled origin (· = origin.arena.declared? host result) region current

variable {host : Host} {start signed current : InferenceState} {passed left : List NodeId}
  {function : NodeId}

theorem Prepared.distinct
    (prepared : Prepared limit origin host root modules imports functions start signed) :
    functions.Nodup := by
  have distinct := prepared.constructed.forest.distinct_of_kind prepared.found
  rw [NodeKind.children] at distinct
  exact (List.nodup_append.mp distinct).2.1

theorem Prepared.child
    (prepared : Prepared limit origin host root modules imports functions start signed)
    (member : function ∈ functions) : function ∈ origin.arena.children root :=
  function_is_child prepared.found member

/-- Nothing lies below two of the nodes along which the work is cut. -/
theorem Prepared.cut
    (prepared : Prepared limit origin host root modules imports functions start signed)
    {other first second id : NodeId} (left : function ∈ functions) (right : other ∈ functions)
    (firstChild : first ∈ origin.arena.children function)
    (secondChild : second ∈ origin.arena.children other)
    (belowFirst : origin.arena.Reachable first id) (belowSecond : origin.arena.Reachable second id) :
    function = other ∧ first = second :=
  prepared.constructed.forest.cousins_disjoint (prepared.child left) (prepared.child right)
    firstChild secondChild belowFirst belowSecond

theorem Prepared.heads_apart
    (prepared : Prepared limit origin host root modules imports functions start signed)
    (subset : ∀ function ∈ passed, function ∈ functions) {id : NodeId}
    (inside : Below origin (allHeads origin functions) id) :
    ¬ Below origin (allBlocks origin passed) id := by
  rintro ⟨block, member, below⟩
  obtain ⟨head, headMember, path⟩ := inside
  obtain ⟨first, firstMember, isHead⟩ := List.mem_flatMap.mp headMember
  obtain ⟨second, secondMember, isBlock⟩ := List.mem_flatMap.mp member
  obtain ⟨rfl, rfl⟩ := prepared.cut firstMember (subset second secondMember)
    (Arena.head_is_child isHead) (Arena.block_is_child isBlock) path below
  exact prepared.constructed.forest.head_ne_block isHead isBlock rfl

/-- A body is not reached before its turn. -/
theorem Prepared.blocks_apart
    (prepared : Prepared limit origin host root modules imports functions start signed)
    (whole : passed ++ function :: left = functions) {id : NodeId}
    (inside : Below origin (allBlocks origin passed) id) :
    ¬ Below origin (origin.arena.blocks function) id := by
  rintro ⟨block, isBlock, below⟩
  obtain ⟨other, member, path⟩ := inside
  obtain ⟨earlier, earlierMember, isOther⟩ := List.mem_flatMap.mp member
  obtain ⟨same, -⟩ := prepared.cut (show earlier ∈ functions by simp [← whole, earlierMember])
    (show function ∈ functions by simp [← whole]) (Arena.block_is_child isOther)
    (Arena.block_is_child isBlock) path below
  have distinct := prepared.distinct
  rw [← whole] at distinct
  exact (List.nodup_append.mp distinct).2.2 earlier earlierMember function List.mem_cons_self same

theorem blocks_bounded (constructed : origin.Constructed limit) {id : NodeId}
    (inside : Below origin (allBlocks origin passed) id) : id.index < origin.arena.size := by
  refine below_child_bounded constructed (fun node member => ?_) inside
  obtain ⟨function, -, isBlock⟩ := List.mem_flatMap.mp member
  exact ⟨function, Arena.block_is_child isBlock⟩

theorem block_bounded (constructed : origin.Constructed limit) {id : NodeId}
    (inside : Below origin (origin.arena.blocks function) id) : id.index < origin.arena.size :=
  below_child_bounded constructed (fun _ isBlock => ⟨function, Arena.block_is_child isBlock⟩) inside

/-- The signatures stay settled. -/
theorem Prepared.heads_settled
    (prepared : Prepared limit origin host root modules imports functions start signed)
    (advanced : Advanced limit origin host functions passed left signed current) :
    Settled origin (fun _ => False)
      (Covered origin (allHeads origin functions) start (outside signed)) (outside current) := by
  refine prepared.work.settled.later advanced.work.leaves ?_
  rintro id (inside | ⟨lower, -⟩) below
  · refine prepared.heads_apart (fun function member => ?_) inside below
    simp [← advanced.whole, member]
  · have bound := blocks_bounded prepared.constructed below
    have size := prepared.sound.size
    omega

/-- A head as it is once the signatures are worked on. -/
theorem Prepared.head_kept
    (prepared : Prepared limit origin host root modules imports functions start signed)
    (advanced : Advanced limit origin host functions passed left signed current) {head : NodeId}
    (member : head ∈ allHeads origin functions) :
    current.type? head = signed.type? head ∧ current.span? head = origin.spans.span? head := by
  have below : Below origin (allHeads origin functions) head := ⟨head, member, .refl⟩
  have apart : ¬ Below origin (allBlocks origin passed) head :=
    prepared.heads_apart (fun function inside => by simp [← advanced.whole, inside]) below
  have old : head.index < (outside signed).size := prepared.work.settled.bounded (Or.inl below)
  constructor
  · exact Arena.type_of_node (advanced.work.leaves.node head old apart)
  · have first : current.span? head = signed.span? head :=
      advanced.work.leaves.span head old apart
    exact first.trans (prepared.work.spans head member)

/-- The next body is still as it was parsed. -/
theorem Prepared.block_same
    (prepared : Prepared limit origin host root modules imports functions start signed)
    (advanced : Advanced limit origin host functions passed (function :: left) signed current)
    {id : NodeId} (inside : Below origin (origin.arena.blocks function) id) :
    current.kind? id = origin.arena.kind? id ∧ current.span? id = origin.spans.span? id := by
  have member : function ∈ functions := by simp [← advanced.whole]
  have one : Below origin (allBlocks origin [function]) id := by simpa [allBlocks] using inside
  have bound := block_bounded prepared.constructed inside
  have old : id.index < start.size := Nat.lt_of_lt_of_le bound prepared.sound.size
  have later : id.index < (outside signed).size := Nat.lt_of_lt_of_le old prepared.work.leaves.size
  have heads : ¬ Below origin (allHeads origin functions) id := fun head =>
    prepared.heads_apart (by simpa using member) head one
  have blocks : ¬ Below origin (allBlocks origin passed) id := fun earlier =>
    prepared.blocks_apart advanced.whole earlier inside
  have root : Below origin [root] id := by
    obtain ⟨block, isBlock, below⟩ := inside
    exact below_singleton.mpr (.below_child (prepared.child member)
      (.below_child (Arena.block_is_child isBlock) below))
  constructor
  · have first := Arena.kind_of_node (advanced.work.leaves.node id later blocks)
    have second := Arena.kind_of_node (prepared.work.leaves.node id old heads)
    exact first.trans (second.trans (prepared.untouched.kind id root))
  · have first := advanced.work.leaves.span id later blocks
    have second := prepared.work.leaves.span id old heads
    exact first.trans (second.trans (prepared.untouched.span id root))

/-- What inference knows of the result of a function. -/
def resultOf (state : InferenceState) : (result : Option NodeId) → Option Ty
  | none => some .void
  | some written => state.type? written

theorem yields_enter (result : Option NodeId) (state : InferenceState) :
    Yields (enter result) state fun _ final =>
      final = { state with scopes := .empty, loopDepth := 0, result := resultOf state result } := by
  unfold enter
  cases result with
  | none => exact rfl
  | some written => exact rfl

theorem yields_declare_parameters {parameters : List NodeId} {state : InferenceState}
    (sound : Sound limit origin state)
    (known : ∀ parameter ∈ parameters, (state.span? parameter).isSome ∧
      ∃ written name, state.kind? parameter = some (.parameter written name)) :
    Yields (parameters.forM declareParameter) state fun _ final =>
      Noted limit origin (fun id => id ∈ parameters) state final := by
  refine (yields_forM declareParameter (fun left current =>
    Noted limit origin (fun id => id ∈ parameters) state current ∧
    ∀ parameter ∈ left, parameter ∈ parameters) ?_ parameters state
    ⟨⟨rfl, sound, .refl _ _⟩, fun _ => id⟩).weaken fun _ final kept => kept.1
  rintro parameter left current ⟨noted, subset⟩
  have member := subset parameter List.mem_cons_self
  obtain ⟨spanned, written, name, kind⟩ := known parameter member
  have rest : ∀ parameter ∈ left, parameter ∈ parameters :=
    fun other inside => subset other (List.mem_cons_of_mem _ inside)
  have found : current.kind? parameter = some (.parameter written name) := by
    unfold InferenceState.kind?
    rw [noted.tree]
    exact kind
  have placed : (current.span? parameter).isSome := by
    unfold InferenceState.span?
    rw [noted.tree]
    exact spanned
  unfold declareParameter
  rw [yields_bind, yields_kind, found]
  simp only
  rw [yields_bind, yields_scopes]
  split
  · rw [yields_bind, yields_type, yields_on_scopes]
    have declared := noted_declare noted.sound placed name (current.type? parameter) .parameter
    exact ⟨noted.trans (declared.weaken fun id same => same ▸ member), rest⟩
  · exact ⟨noted, rest⟩

/-- What is above the cut is still as it was parsed. -/
theorem Prepared.above_same
    (prepared : Prepared limit origin host root modules imports functions start signed)
    (advanced : Advanced limit origin host functions passed left signed current) {node : NodeId}
    (above : node = root ∨ node ∈ origin.arena.children root) :
    current.kind? node = origin.arena.kind? node ∧ current.span? node = origin.spans.span? node := by
  have forest := prepared.constructed.forest
  have heads : ¬ Below origin (allHeads origin functions) node := by
    rintro ⟨head, member, below⟩
    obtain ⟨function, inside, isHead⟩ := List.mem_flatMap.mp member
    exact forest.above_grandchild (prepared.child inside) (Arena.head_is_child isHead) above below
  have blocks : ¬ Below origin (allBlocks origin passed) node := by
    rintro ⟨block, member, below⟩
    obtain ⟨function, inside, isBlock⟩ := List.mem_flatMap.mp member
    have known : function ∈ functions := by simp [← advanced.whole, inside]
    exact forest.above_grandchild (prepared.child known) (Arena.block_is_child isBlock) above below
  have below : Below origin [root] node := by
    rw [below_singleton]
    obtain rfl | child := above
    · exact .refl
    · exact .of_child child
  have bound : node.index < origin.arena.size := by
    have rootBound := Arena.kind_bound prepared.found
    exact below_bounded prepared.constructed (by simpa using rootBound) below
  have old : node.index < start.size := Nat.lt_of_lt_of_le bound prepared.sound.size
  have later : node.index < (outside signed).size := Nat.lt_of_lt_of_le old prepared.work.leaves.size
  constructor
  · have first := Arena.kind_of_node (advanced.work.leaves.node node later blocks)
    have second := Arena.kind_of_node (prepared.work.leaves.node node old heads)
    exact first.trans (second.trans (prepared.untouched.kind node below))
  · have first := advanced.work.leaves.span node later blocks
    have second := prepared.work.leaves.span node old heads
    exact first.trans (second.trans (prepared.untouched.span node below))

/-- A parameter is still one when its function is looked at, and has its name. -/
theorem Prepared.parameter_kind
    (prepared : Prepared limit origin host root modules imports functions start signed)
    (advanced : Advanced limit origin host functions passed left signed current)
    {parameter written : NodeId} {name : String} (member : parameter ∈ allHeads origin functions)
    (found : origin.arena.kind? parameter = some (.parameter written name)) :
    ∃ other, current.kind? parameter = some (.parameter other name) := by
  have below : Below origin (allHeads origin functions) parameter := ⟨parameter, member, .refl⟩
  obtain ⟨kind, fine, -⟩ := prepared.heads_settled advanced parameter (Or.inl below)
  have known : current.kind? parameter = some kind := fine.found
  cases fine.traced with
  | parsed before alike _ =>
      rw [found] at before
      cases before
      cases alike
      exact ⟨_, known⟩
  | added new _ => exact absurd (Arena.kind_bound found) (Nat.not_lt.mpr new)

/-- A function is entered: no name is visible, and no loop is around. -/
def entered (state : InferenceState) (result : Option NodeId) : InferenceState :=
  { state with scopes := .empty, loopDepth := 0, result := resultOf state result }

/-- With the parameters declared, the body is still as it was parsed. -/
theorem Prepared.yields_entered
    (prepared : Prepared limit origin host root modules imports functions start signed)
    (advanced : Advanced limit origin host functions passed (function :: left) signed current)
    {result : Option NodeId} {name : String} {parameters : List NodeId} {block : NodeId}
    (found : origin.arena.kind? function = some (.function result name parameters block)) :
    Yields (parameters.forM declareParameter) (entered current result) fun _ declared =>
      Noted limit origin (fun id => id ∈ parameters) (entered current result) declared ∧
      Untouched origin (Below origin [block]) declared := by
  have constructed := prepared.constructed
  have member : function ∈ functions := by simp [← advanced.whole]
  have isBlock : origin.arena.blocks function = [block] := by
    unfold Arena.blocks
    rw [found]
  have isHead : ∀ head ∈ parameters, head ∈ allHeads origin functions := by
    intro head inside
    refine List.mem_flatMap.mpr ⟨function, member, ?_⟩
    unfold Arena.heads
    rw [found]
    exact List.mem_append_right _ inside
  have parameterKnown : ∀ parameter ∈ parameters, (current.span? parameter).isSome ∧
      ∃ written name, current.kind? parameter = some (.parameter written name) := by
    intro parameter inside
    have head := isHead parameter inside
    obtain ⟨kind, known, admits⟩ :=
      constructed.admitted found (.parameter, parameter) (by simp [NodeKind.slots, inside])
    constructor
    · rw [(prepared.head_kept advanced head).2]
      exact (constructed.recorded parameter).mpr (Arena.kind_bound known)
    · cases kind with
      | parameter written name =>
          obtain ⟨other, still⟩ := prepared.parameter_kind advanced head known
          exact ⟨other, name, still⟩
      | _ => cases admits
  have enteredSound : Sound limit origin (entered current result) :=
    ⟨advanced.sound.size, advanced.sound.placed, (List.forall_mem_nil _),
      advanced.sound.reported, advanced.sound.rests⟩
  refine (yields_declare_parameters enteredSound parameterKnown).weaken fun _ declared noted =>
    ⟨noted, ?_⟩
  have tree : declared.tree = current.tree := noted.tree
  have same : ∀ id, Below origin [block] id →
      current.kind? id = origin.arena.kind? id ∧ current.span? id = origin.spans.span? id := by
    intro id inside
    rw [← isBlock] at inside
    exact prepared.block_same advanced inside
  refine ⟨fun id inside => ?_, fun id inside => ?_, fun id inside bound => ?_⟩
  · unfold InferenceState.kind?
    rw [tree]
    exact (same id inside).1
  · unfold InferenceState.span?
    rw [tree]
    exact (same id inside).2
  · rw [← isBlock] at inside
    have one : Below origin (allBlocks origin [function]) id := by simpa [allBlocks] using inside
    have old : id.index < current.size :=
      Nat.lt_of_lt_of_le (block_bounded constructed inside) advanced.sound.size
    refine absurd (noted.leaves.bound id bound old fun parameter => ?_) List.not_mem_nil
    exact prepared.heads_apart (by simpa using member) ⟨id, isHead id parameter, .refl⟩ one

theorem yields_function
    (prepared : Prepared limit origin environment.host root modules imports functions start signed)
    (advanced : Advanced limit origin environment.host functions passed (function :: left) signed
      current) :
    Yields (Inference.function environment function) current fun _ final =>
      Advanced limit origin environment.host functions (passed ++ [function]) left signed final := by
  have constructed := prepared.constructed
  have member : function ∈ functions := by simp [← advanced.whole]
  obtain ⟨result, name, parameters, block, found⟩ :=
    function_kind constructed prepared.found member
  have isBlock : origin.arena.blocks function = [block] := by
    unfold Arena.blocks
    rw [found]
  have headMember : ∀ head ∈ result.toList ++ parameters, head ∈ origin.arena.heads function := by
    intro head inside
    unfold Arena.heads
    rw [found]
    exact inside
  have isHead : ∀ head ∈ result.toList ++ parameters, head ∈ allHeads origin functions :=
    fun head inside => List.mem_flatMap.mpr ⟨function, member, headMember head inside⟩
  have kind : current.kind? function = some (.function result name parameters block) :=
    (prepared.above_same advanced (Or.inr (prepared.child member))).1.trans found
  unfold Inference.function
  rw [yields_bind, yields_kind, kind]
  simp only
  rw [yields_bind]
  refine (yields_enter result current).weaken ?_
  rintro _ _ rfl
  rw [yields_bind]
  refine (prepared.yields_entered advanced found).weaken ?_
  rintro _ declared ⟨noted, untouched⟩
  have tree : declared.tree = current.tree := noted.tree
  have reports : current.diagnostics <+: declared.diagnostics := noted.leaves.diagnostics
  have declaredResult : declared.result = resultOf current result := noted.leaves.result
  have admitted := constructed.admitted found (.body, block) (by simp [NodeKind.slots])
  have checked : Yields (wholeBody environment block) declared fun _ final =>
      Worked limit origin (fun found => found = declared.result) [block] declared final :=
    yields_whole_body constructed admitted noted.sound untouched fun _ same => same
  refine checked.weaken fun _ final work => ?_
  have cleaner : declared.Clean → current.Clean := noted.leaves.clean
  have known : final.Clean → declared.result = origin.arena.declared? environment.host result := by
    intro clean
    have signedClean : signed.Clean :=
      advanced.work.leaves.clean (cleaner (work.leaves.clean clean))
    rw [declaredResult]
    cases result with
    | none => rfl
    | some written =>
        have head := isHead written (by simp)
        change current.type? written = _
        rw [(prepared.head_kept advanced head).1]
        exact prepared.declared signedClean function member _ _ _ _ found written rfl
  have all : allBlocks origin (passed ++ [function]) = allBlocks origin passed ++ [block] := by
    simp [isBlock]
  have apart : ∀ id, Below origin (allBlocks origin passed) id → ¬ Below origin [block] id := by
    intro id earlier
    rw [← isBlock]
    exact prepared.blocks_apart advanced.whole earlier
  refine ⟨by simpa using advanced.whole, work.sound, ?_, ?_⟩
  · rw [all]
    refine advanced.work.append prepared.work.sound
      (work.outside tree reports fun _ _ => False.elim) (fun id inside => ?_) apart
    rw [← isBlock] at inside
    exact block_bounded constructed inside
  · intro other inside otherResult otherName otherParameters otherBlock otherFound
    obtain earlier | last := List.mem_append.mp inside
    · obtain ⟨region, contains, limits, settled⟩ :=
        advanced.returns other earlier _ _ _ _ otherFound
      refine ⟨region, contains, limits, ?_⟩
      refine (settled.of_same_tree tree cleaner).later work.leaves fun id inside below => ?_
      have bound := block_bounded constructed (show Below origin (origin.arena.blocks function) id
        from isBlock ▸ below)
      refine apart id ⟨otherBlock, List.mem_flatMap.mpr ⟨other, earlier, ?_⟩, limits id inside bound⟩
        below
      simp [Arena.blocks, otherFound]
    · rw [List.mem_singleton] at last
      subst last
      rw [found] at otherFound
      cases otherFound
      refine ⟨Covered origin [block] declared final, Visits.child_covered (by simp), ?_, ?_⟩
      · rintro id (below | ⟨lower, -⟩) bound
        · exact below_singleton.mp below
        · have size := noted.sound.size
          omega
      · refine work.settled.fewer_results fun clean found same => ?_
        rw [known clean]
        exact same

theorem yields_functions
    (prepared : Prepared limit origin environment.host root modules imports functions start signed)
    (sound : Sound limit origin signed) :
    Yields (functions.forM (Inference.function environment)) signed fun _ final =>
      Advanced limit origin environment.host functions functions [] signed final := by
  refine (yields_forM (Inference.function environment) (fun left current => ∃ passed,
    Advanced limit origin environment.host functions passed left signed current) ?_ functions signed
    ⟨[], rfl, sound, .nil _ prepared.work.sound, nofun⟩).weaken ?_
  · rintro function left current ⟨passed, advanced⟩
    exact (yields_function prepared advanced).weaken fun _ final more => ⟨_, more⟩
  · rintro _ final ⟨passed, advanced⟩
    have whole := advanced.whole
    rw [List.append_nil] at whole
    subst whole
    exact advanced

/-- What inference leaves behind, apart from the tree that it started with. -/
structure Inferred (limit : Position) (origin : SourceTree) (host : Host) (root : NodeId)
    (modules imports functions : List NodeId) (final : InferenceState) : Prop where
  sound : Sound limit origin final
  above : ∀ node, node = root ∨ node ∈ origin.arena.children root →
    final.kind? node = origin.arena.kind? node ∧ final.span? node = origin.spans.span? node
  settled : ∃ region : Region, region root ∧ Settled origin (fun _ => False) region final ∧
    (∀ id, origin.arena.size ≤ id.index → id.index < final.size → region id) ∧
    ∀ id, id.index < origin.arena.size → ¬ region id →
      final.tree.arena.node? id = origin.arena.node? id
  returns : ∀ function ∈ functions, ∀ result name parameters block,
    origin.arena.kind? function = some (.function result name parameters block) →
    ∃ region : Region, region block ∧
      (∀ id, region id → id.index < origin.arena.size → origin.arena.Reachable block id) ∧
      Settled origin (· = origin.arena.declared? host result) region final

theorem inferred_of_advanced
    (prepared : Prepared limit origin host root modules imports functions start signed)
    (advanced : Advanced limit origin host functions functions [] signed current) :
    Inferred limit origin host root modules imports functions current := by
  have constructed := prepared.constructed
  have total : Worked limit origin (fun _ => False)
      (allHeads origin functions ++ allBlocks origin functions) start (outside current) :=
    prepared.work.append prepared.sound advanced.work (fun _ => blocks_bounded constructed)
      fun node inside => prepared.heads_apart (fun _ => id) inside
  have cut : ∀ function ∈ functions, ∀ child ∈ origin.arena.children function,
      child ∈ allHeads origin functions ++ allBlocks origin functions := by
    intro function member child inside
    obtain ⟨result, name, parameters, block, found⟩ :=
      function_kind constructed prepared.found member
    obtain head | isBlock := Arena.head_or_block found inside
    · exact List.mem_append_left _ (List.mem_flatMap.mpr ⟨function, member, head⟩)
    · exact List.mem_append_right _ (List.mem_flatMap.mpr ⟨function, member, isBlock⟩)
  have bounded : ∀ {parent child}, child ∈ origin.arena.children parent →
      (origin.spans.span? child).isSome := by
    intro parent child inside
    obtain ⟨kind, found, -⟩ := Arena.kind_of_child inside
    exact (constructed.recorded child).mpr
      (Nat.lt_trans (constructed.forest.below inside) (Arena.kind_bound found))
  have covered := total.settled.of_same_tree (show current.tree = (outside current).tree from rfl) id
  refine ⟨advanced.sound, fun node above => prepared.above_same advanced above,
    ⟨fun id => (id = root ∨ id ∈ origin.arena.children root) ∨ Covered origin
      (allHeads origin functions ++ allBlocks origin functions) start (outside current) id,
      Or.inl (Or.inl rfl), ?_, ?_, ?_⟩, ?_⟩
  · rintro id (above | inside)
    · obtain ⟨sameKind, sameSpan⟩ := prepared.above_same advanced above
      have fine : ∀ kind, origin.arena.kind? id = some kind →
          (∀ types own, kind.Obeys types own (fun _ => False)) →
          (∀ child ∈ kind.children, current.span? child = origin.spans.span? child) →
          Fine origin (fun _ => False) current id (current.type? id) kind := by
        intro kind found obeys places
        have slots : ∀ child ∈ kind.children, child ∈ origin.arena.children id := by
          intro child member
          exact Arena.child_of_kind found member
        refine ⟨sameKind.trans found, SourceTree.traced_parsed constructed.forest found, ?_, ?_,
          fun _ => obeys _ _⟩
        · exact SourceTree.joined_parsed constructed (Arena.kind_bound found) sameSpan
            fun child member => ⟨child, slots child member, places child member⟩
        · intro child member
          rw [places child member]
          exact bounded (slots child member)
      obtain rfl | child := above
      · refine ⟨_, fine _ prepared.found (fun _ _ => trivial) fun child member => ?_,
          fun child member => ?_⟩
        · rw [← Arena.children_of_kind prepared.found] at member
          exact (prepared.above_same advanced (Or.inr member)).2
        · rw [← Arena.children_of_kind prepared.found] at member
          exact Or.inl (Or.inr member)
      · rw [Arena.children_of_kind prepared.found, NodeKind.children] at child
        have leaf : ∀ kind, origin.arena.kind? id = some kind → kind.children = [] →
            (∀ types own, kind.Obeys types own (fun _ => False)) → ∃ kind,
            Fine origin (fun _ => False) current id (current.type? id) kind ∧
            ∀ child ∈ kind.children, (child = root ∨ child ∈ origin.arena.children root) ∨
              Covered origin (allHeads origin functions ++ allBlocks origin functions) start
                (outside current) child := by
          intro kind found none obeys
          exact ⟨kind, fine kind found obeys (by simp [none]), by simp [none]⟩
        obtain early | member := List.mem_append.mp child
        · obtain member | member := List.mem_append.mp early
          · obtain ⟨kind, found, admits⟩ := constructed.admitted prepared.found (.moduleDef, id)
              (by simp [NodeKind.slots, member])
            cases kind with
            | moduleDef path => exact leaf _ found rfl fun _ _ => trivial
            | _ => cases admits
          · obtain ⟨kind, found, admits⟩ := constructed.admitted prepared.found (.useDef, id)
              (by simp [NodeKind.slots, member])
            cases kind with
            | useDef path => exact leaf _ found rfl fun _ _ => trivial
            | _ => cases admits
        · obtain ⟨result, name, parameters, block, found⟩ :=
            function_kind constructed prepared.found member
          refine ⟨_, fine _ found (fun _ _ => trivial) fun child inside => ?_,
            fun child inside => ?_⟩
          · rw [← Arena.children_of_kind found] at inside
            exact total.spans child (cut id member child inside)
          · rw [← Arena.children_of_kind found] at inside
            exact Or.inr (Visits.child_covered (cut id member child inside))
    · obtain ⟨kind, fine, closed⟩ := covered id inside
      exact ⟨kind, fine, fun child member => Or.inr (closed child member)⟩
  · intro id new bound
    refine Or.inr (Or.inr ⟨?_, bound⟩)
    unfold InferenceState.size
    rw [prepared.fresh]
    exact new
  · intro id old apart
    have bound : id.index < start.size := Nat.lt_of_lt_of_le old prepared.sound.size
    have same := total.leaves.node id bound fun below => apart (Or.inr (Or.inl below))
    rw [prepared.fresh] at same
    exact same
  · exact advanced.returns

theorem yields_prepared (constructed : origin.Constructed limit)
    (found : origin.arena.kind? root = some (.root modules imports functions)) (fileName : String)
    (host : Host) :
    Yields (functions.mapM (signature ⟨fileName, host, []⟩)) (.initial origin) fun _ signed =>
      Prepared limit origin host root modules imports functions (.initial origin) signed ∧
      Sound limit origin signed := by
  have sound : Sound limit origin (.initial origin) := by
    refine ⟨Nat.le_refl _, fun recorded => ⟨?_, constructed.bounded recorded⟩,
      (List.forall_mem_nil _), nofun, fun _ _ => rfl⟩
    exact (constructed.recorded _).mp (Option.isSome_of_eq_some recorded)
  have untouched : Untouched origin (Below origin [root]) (.initial origin) :=
    ⟨fun _ _ => rfl, fun _ _ => rfl, fun _ _ inside => nomatch inside⟩
  have distinct : functions.Nodup := by
    have apart := constructed.forest.distinct_of_kind found
    rw [NodeKind.children] at apart
    exact (List.nodup_append.mp apart).2.1
  refine (yields_signatures (fun _ => False) constructed found distinct sound untouched).weaken ?_
  rintro signatures signed ⟨work, declared⟩
  exact ⟨⟨constructed, found, sound, rfl, untouched,
    work.outside rfl (List.prefix_refl _) fun _ _ => id, declared⟩, work.sound⟩

theorem yields_whole_module (constructed : origin.Constructed limit)
    (found : origin.arena.kind? root = some (.root modules imports functions)) (fileName : String)
    (host : Host) :
    Yields (wholeModule fileName host root) (.initial origin) fun _ final =>
      Inferred limit origin host root modules imports functions final := by
  have kind : (InferenceState.initial origin).kind? root = some (.root modules imports functions) :=
    found
  unfold wholeModule
  rw [yields_bind, yields_kind, kind]
  simp only
  rw [yields_bind]
  refine (yields_prepared constructed found fileName host).weaken ?_
  rintro signatures signed ⟨prepared, sound⟩
  have bodies : Yields (functions.forM (Inference.function ⟨fileName, host, signatures⟩)) signed
      fun _ final => Advanced limit origin host functions functions [] signed final :=
    yields_functions prepared sound
  exact bodies.weaken fun _ final => inferred_of_advanced prepared

end Modules

end Inference

namespace SourceTree

variable {limit : Position} {origin : SourceTree} {root : NodeId}
  {modules imports functions : List NodeId}

theorem yields_infer_types (constructed : origin.Constructed limit)
    (found : origin.arena.kind? root = some (.root modules imports functions)) (fileName : String)
    (host : Host) :
    Yields (inferTypes fileName host root) origin fun diagnostics tree => ∃ final,
      Inference.Inferred limit origin host root modules imports functions final ∧
      final.tree = tree ∧ final.diagnostics = diagnostics := by
  obtain ⟨value, final, ran, inferred⟩ :=
    yields_iff.mp (Inference.yields_whole_module constructed found fileName host)
  refine yields_iff.mpr ⟨final.diagnostics, final.tree, ?_, final, inferred, rfl, rfl⟩
  change Inference.diagnose _ origin = _
  unfold Inference.diagnose
  rw [ran]

end SourceTree

end ModuleLang
