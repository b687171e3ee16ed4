import ModuleLang.Proofs.Tree.Hierarchy
import ModuleLang.Proofs.Validation.Paths
import ModuleLang.Proofs.Validation.Returns

/-!
The return that ends a function without a result. It is added behind the last
statement of the body, at the end of its span, and asks nothing that a function
without a result does not give.
-/

namespace ModuleLang

namespace SourceTree

/-- The tree with a return behind the statements of a body. -/
def completed (tree : SourceTree) (body : NodeId) (statements : List NodeId) (span : Span) :
    SourceTree :=
  ⟨(tree.arena.alloc (.returnFrom none)).2.setKind body (.body (statements ++ [⟨tree.arena.size⟩])),
    tree.spans.insert ⟨tree.arena.size⟩ (.point span.stop)⟩

variable {tree : SourceTree} {body : NodeId} {statements : List NodeId} {span : Span}

theorem size_completed : (tree.completed body statements span).arena.size = tree.arena.size + 1 := by
  unfold completed
  rw [Arena.size_setKind, Arena.size_alloc]

theorem kind_completed_body (found : tree.arena.kind? body = some (.body statements)) :
    (tree.completed body statements span).arena.kind? body =
      some (.body (statements ++ [⟨tree.arena.size⟩])) := by
  unfold completed
  refine Arena.kind_set_kind ?_ _
  rw [Arena.size_alloc]
  exact Nat.lt_succ_of_lt (Arena.kind_bound found)

theorem kind_completed_new (found : tree.arena.kind? body = some (.body statements)) :
    (tree.completed body statements span).arena.kind? ⟨tree.arena.size⟩ = some (.returnFrom none) := by
  have apart : body ≠ ⟨tree.arena.size⟩ := by
    rintro rfl
    exact Nat.lt_irrefl _ (Arena.kind_bound found)
  unfold completed Arena.kind?
  rw [Arena.node_set_kind, if_neg apart, Arena.node?_alloc, if_pos rfl]
  rfl

theorem kind_completed_old {id : NodeId} (apart : id ≠ body) (old : id.index < tree.arena.size) :
    (tree.completed body statements span).arena.kind? id = tree.arena.kind? id := by
  refine Arena.kind_of_node ?_
  unfold completed
  rw [Arena.node_set_kind, if_neg (Ne.symm apart), Arena.node?_alloc, if_neg (Nat.ne_of_lt old)]

/-- Only a body changes its kind. -/
theorem kind_completed_other {id : NodeId} {kind : NodeKind NodeId}
    (found : tree.arena.kind? body = some (.body statements)) (known : tree.arena.kind? id = some kind)
    (other : ∀ statements, kind ≠ .body statements) :
    (tree.completed body statements span).arena.kind? id = some kind := by
  rw [kind_completed_old ?_ (Arena.kind_bound known)]
  · exact known
  · rintro rfl
    rw [found] at known
    cases known
    exact other statements rfl

theorem type_completed : (tree.completed body statements span).arena.type? = tree.arena.type? := by
  funext id
  unfold completed
  rw [Arena.type?_setKind]
  unfold Arena.type?
  rw [Arena.node?_alloc]
  split
  · rename_i new
    have none : tree.arena.node? id = none := by
      rw [← Option.not_isSome_iff_eq_none, Arena.node_bound, new]
      exact Nat.lt_irrefl _
    rw [none]
    rfl
  · rfl

theorem span_completed (id : NodeId) : (tree.completed body statements span).spans.span? id =
    if id.index = tree.arena.size then some (.point span.stop) else tree.spans.span? id := by
  unfold completed
  rw [SpanTable.span_insert]
  by_cases same : id.index = tree.arena.size
  · rw [if_pos same, if_pos (show (⟨tree.arena.size⟩ : NodeId) = id from NodeId.ext same.symm)]
  · rw [if_neg same, if_neg fun equal => same (congrArg NodeId.index equal.symm)]

/-- What is in the slots of a node behind the return, or was before. -/
theorem children_completed (found : tree.arena.kind? body = some (.body statements))
    {parent child : NodeId} (slot : child ∈ (tree.completed body statements span).arena.children parent) :
    child ∈ tree.arena.children parent ∨ (parent = body ∧ child = ⟨tree.arena.size⟩) := by
  by_cases same : parent = body
  · subst same
    rw [Arena.children_of_kind (kind_completed_body found)] at slot
    rw [Arena.children_of_kind found]
    rcases List.mem_append.mp slot with old | new
    · exact Or.inl old
    · exact Or.inr ⟨rfl, List.mem_singleton.mp new⟩
  · rcases Arena.kind_of_child slot with ⟨kind, known, inside⟩
    have bound := Arena.kind_bound known
    rw [size_completed] at bound
    rcases Nat.lt_succ_iff_lt_or_eq.mp bound with old | new
    · rw [kind_completed_old same old] at known
      rw [Arena.children_of_kind known]
      exact Or.inl inside
    · have isNew : parent = ⟨tree.arena.size⟩ := NodeId.ext new
      subst isNew
      cases (kind_completed_new found).symm.trans known
      cases inside

/-- A slot that can be reached was there before, or holds the return. -/
theorem reachable_completed {root parent child : NodeId}
    (found : tree.arena.kind? body = some (.body statements))
    (above : (tree.completed body statements span).arena.Reachable root parent)
    (slot : child ∈ (tree.completed body statements span).arena.children parent) :
    tree.arena.Reachable root parent ∧
      (child ∈ tree.arena.children parent ∨ (parent = body ∧ child = ⟨tree.arena.size⟩)) := by
  induction above generalizing child with
  | refl => exact ⟨.refl, children_completed found slot⟩
  | @tail middle parent _ inside ih =>
      rcases ih inside with ⟨above, held | ⟨-, isNew⟩⟩
      · exact ⟨Relation.ReflTransGen.tail above held, children_completed found slot⟩
      · -- The return has no slots.
        subst isNew
        rw [Arena.children_of_kind (kind_completed_new found)] at slot
        cases slot

/-- The return is a leaf at the end of a body, and has no other place. -/
theorem Hierarchy.completed {root : NodeId} (hierarchy : tree.Hierarchy root)
    (found : tree.arena.kind? body = some (.body statements))
    (place : tree.spans.span? body = some span) :
    (tree.completed body statements span).Hierarchy root := by
  have absent : ∀ {parent}, tree.arena.Reachable root parent →
      ⟨tree.arena.size⟩ ∉ tree.arena.children parent := by
    intro parent above slot
    have bound := (hierarchy.present _ (Relation.ReflTransGen.tail above slot)).1
    exact Nat.lt_irrefl _ bound
  have kept : ∀ {id}, id.index < tree.arena.size →
      (tree.completed body statements span).spans.span? id = tree.spans.span? id := by
    intro id bound
    rw [span_completed, if_neg (Nat.ne_of_lt bound)]
  have bound : ∀ {id}, tree.arena.Reachable root id → id.index < tree.arena.size :=
    fun below => (hierarchy.present _ below).1
  have reached : ∀ {id}, (tree.completed body statements span).arena.Reachable root id →
      tree.arena.Reachable root id ∨ id = ⟨tree.arena.size⟩ := by
    intro id below
    rcases Relation.ReflTransGen.cases_tail below with same | ⟨parent, above, slot⟩
    · exact Or.inl (same ▸ .refl)
    · rcases reachable_completed found above slot with ⟨above, held | ⟨-, isNew⟩⟩
      · exact Or.inl (Relation.ReflTransGen.tail above held)
      · exact Or.inr isNew
  constructor
  · intro id below
    rcases reached below with below | isNew
    · rw [size_completed, kept (bound below)]
      exact ⟨Nat.lt_succ_of_lt (bound below), (hierarchy.present id below).2⟩
    · rw [isNew, size_completed, span_completed, if_pos rfl]
      exact ⟨Nat.lt_succ_self _, rfl⟩
  · intro node below
    rcases reached below with above | isNew
    · have distinct := hierarchy.distinct node above
      by_cases same : node = body
      · subst same
        rw [Arena.children_of_kind found] at distinct
        rw [Arena.children_of_kind (kind_completed_body found)]
        apply List.nodup_append.mpr
        refine ⟨distinct, List.nodup_singleton _, ?_⟩
        intro child held other isNew equal
        rw [List.mem_singleton.mp isNew] at equal
        apply absent above
        exact Arena.child_of_kind found (equal ▸ held)
      · unfold Arena.children at *
        rw [kind_completed_old same (bound above)]
        exact distinct
    · rw [isNew, Arena.children_of_kind (kind_completed_new found)]
      exact List.nodup_nil
  · intro first second child left right inFirst inSecond
    rcases reachable_completed found left inFirst with ⟨left, held | ⟨isBody, isNew⟩⟩
    · rcases reachable_completed found right inSecond with ⟨right, held' | ⟨-, isNew⟩⟩
      · exact hierarchy.single first second child left right held held'
      · exact absurd (isNew ▸ held) (absent left)
    · rcases reachable_completed found right inSecond with ⟨right, held' | ⟨isBody', -⟩⟩
      · exact absurd (isNew ▸ held') (absent right)
      · exact isBody.trans isBody'.symm
  · rcases hierarchy.ranked with ⟨rank, falls⟩
    refine ⟨fun id => if id.index = tree.arena.size then 0 else rank id + 1, ?_⟩
    intro parent child above slot
    beta_reduce
    rcases reachable_completed found above slot with ⟨above, held | ⟨-, isNew⟩⟩
    · have below := bound (Relation.ReflTransGen.tail above held)
      rw [if_neg (Nat.ne_of_lt below), if_neg (Nat.ne_of_lt (bound above))]
      exact Nat.succ_lt_succ (falls parent child above held)
    · rw [isNew, if_pos rfl, if_neg (Nat.ne_of_lt (bound above))]
      exact Nat.succ_pos _
  · intro parent child above slot inner outer first second
    rcases reachable_completed found above slot with ⟨above, held | ⟨isBody, isNew⟩⟩
    · rw [kept (bound (Relation.ReflTransGen.tail above held))] at first
      rw [kept (bound above)] at second
      exact hierarchy.covers parent child above held inner outer first second
    · rw [isNew, span_completed, if_pos rfl, Option.some.injEq] at first
      rw [kept (bound above), isBody, place, Option.some.injEq] at second
      subst first second
      exact ⟨span.ordered, Position.le_refl _⟩

theorem Upheld.bounded {clean : Prop} {results : Option Ty → Prop} {region : NodeId → Prop}
    (upheld : tree.Upheld clean results region) {id : NodeId} (inside : region id) :
    id.index < tree.arena.size := by
  obtain ⟨kind, found, -⟩ := upheld id inside
  exact Arena.kind_bound found

/-- A region stays upheld, with the return if it has the body. -/
theorem Upheld.completed {clean : Prop} {results : Option Ty → Prop} {region : NodeId → Prop}
    (upheld : tree.Upheld clean results region)
    (found : tree.arena.kind? body = some (.body statements))
    (ends : region body → ∀ result, results result → IfKnown result (· = .void)) :
    (tree.completed body statements span).Upheld clean results
      (fun id => region id ∨ (region body ∧ id = ⟨tree.arena.size⟩)) := by
  have spanned : ∀ child, region child → (tree.spans.span? child).isSome →
      ((tree.completed body statements span).spans.span? child).isSome := by
    intro child inside known
    rw [span_completed, if_neg (Nat.ne_of_lt (upheld.bounded inside))]
    exact known
  rintro id (inside | ⟨inside, rfl⟩)
  · obtain ⟨kind, known, closed, obeys⟩ := upheld id inside
    by_cases same : id = body
    · subst same
      rw [found] at known
      cases known
      refine ⟨_, kind_completed_body found, fun child member => ?_, fun _ => trivial⟩
      obtain old | new := List.mem_append.mp member
      · obtain ⟨held, placed⟩ := closed child old
        exact ⟨Or.inl held, spanned child held placed⟩
      · rw [List.mem_singleton] at new
        subst new
        refine ⟨Or.inr ⟨inside, rfl⟩, ?_⟩
        rw [span_completed, if_pos rfl]
        rfl
    · refine ⟨kind, ?_, fun child member => ?_, ?_⟩
      · rw [kind_completed_old same (upheld.bounded inside)]
        exact known
      · obtain ⟨held, placed⟩ := closed child member
        exact ⟨Or.inl held, spanned child held placed⟩
      · rw [type_completed]
        exact obeys
  · refine ⟨_, kind_completed_new found, nofun, fun _ => ?_⟩
    exact ends inside

/-- A body ends with a return. -/
def Ended (tree : SourceTree) (block : NodeId) : Prop :=
  ∃ earlier last value, tree.arena.kind? block = some (.body (earlier ++ [last])) ∧
    tree.arena.kind? last = some (.returnFrom value)

/-- A function has a result, or ends with a return. -/
def Closed (tree : SourceTree) (function : NodeId) : Prop :=
  ∃ result name parameters block,
    tree.arena.kind? function = some (.function result name parameters block) ∧
    (result = none → tree.Ended block)

theorem not_finished_of_ended {block : NodeId} (ended : tree.Ended block) :
    ¬ tree.arena.Runs block .finished := by
  obtain ⟨earlier, last, value, found, returns⟩ := ended
  rw [Arena.finished_body found]
  exact fun each => Arena.not_finished_return returns (each last (by simp))

/-- What may happen to a tree while its functions are completed. -/
structure Completing (tree final : SourceTree) : Prop where
  prolongs : tree.arena.Prolongs final.arena
  size : tree.arena.size ≤ final.arena.size
  types : final.arena.type? = tree.arena.type?
  keeps : ∀ function, tree.Closed function → final.Closed function
  hierarchy : ∀ root, tree.Hierarchy root → final.Hierarchy root

theorem Completing.refl (tree : SourceTree) : tree.Completing tree :=
  ⟨.refl _, Nat.le_refl _, rfl, fun _ => id, fun _ => id⟩

theorem Completing.trans {middle final : SourceTree} (first : tree.Completing middle)
    (second : middle.Completing final) : tree.Completing final :=
  ⟨first.prolongs.trans second.prolongs, Nat.le_trans first.size second.size,
    second.types.trans first.types,
    fun function closed => second.keeps function (first.keeps function closed),
    fun root hierarchy => second.hierarchy root (first.hierarchy root hierarchy)⟩

theorem ended_completed (found : tree.arena.kind? body = some (.body statements)) :
    (tree.completed body statements span).Ended body :=
  ⟨statements, ⟨tree.arena.size⟩, none, kind_completed_body found, kind_completed_new found⟩

theorem completing_completed (found : tree.arena.kind? body = some (.body statements))
    (place : tree.spans.span? body = some span) :
    tree.Completing (tree.completed body statements span) where
  prolongs := by
    intro id kind known
    by_cases same : id = body
    · subst same
      cases found.symm.trans known
      refine Or.inr ⟨statements, _, rfl, kind_completed_body found, fun node member => ?_⟩
      rw [List.mem_singleton.mp member]
      exact kind_completed_new found
    · exact Or.inl ((kind_completed_old same (Arena.kind_bound known)).trans known)
  size := by
    rw [size_completed]
    exact Nat.le_succ _
  types := type_completed
  hierarchy root hierarchy := hierarchy.completed found place
  keeps := by
    rintro function ⟨result, name, parameters, block, known, ends⟩
    refine ⟨result, name, parameters, block, kind_completed_other found known nofun, fun void => ?_⟩
    obtain ⟨earlier, last, value, held, returns⟩ := ends void
    by_cases same : block = body
    · rw [same]
      exact ended_completed found
    · exact ⟨earlier, last, value, (kind_completed_old same (Arena.kind_bound held)).trans held,
        kind_completed_other found returns nofun⟩

section Woven

variable {limit : Position} {host : Host} {clean : Prop} {root function : NodeId} {name : String}
  {modules imports functions parameters : List NodeId}

/-- What was inferred stays so when a function without a result gets its return. -/
theorem Woven.completed
    (woven : tree.Woven limit host clean root modules imports functions)
    (member : function ∈ functions)
    (owner : tree.arena.kind? function = some (.function none name parameters body))
    (found : tree.arena.kind? body = some (.body statements)) (inside : span.stop ≤ limit) :
    (tree.completed body statements span).Woven limit host clean root modules imports functions := by
  have kept : ∀ {id kind}, tree.arena.kind? id = some kind → (∀ statements, kind ≠ .body statements) →
      (tree.completed body statements span).arena.kind? id = some kind :=
    fun known other => kind_completed_other found known other
  have functionKind : ∀ {other result name parameters block}, other ∈ functions →
      (tree.completed body statements span).arena.kind? other =
        some (.function result name parameters block) →
      tree.arena.kind? other = some (.function result name parameters block) := by
    intro other result name parameters block otherMember known
    obtain ⟨_, _, _, _, before, -⟩ := woven.functionKinds other otherMember
    rw [kept before (by simp)] at known
    rw [before]
    exact known
  have declared : ∀ {result parameters block}, tree.HasFunction result parameters block →
      (tree.completed body statements span).arena.declared? host result =
        tree.arena.declared? host result := by
    intro result parameters block has
    cases result with
    | none => rfl
    | some written =>
        obtain ⟨name, ranks, known⟩ := has.result written rfl
        simp only [Arena.declared?, Arena.written?, known, kept known (by simp)]
  refine ⟨kept woven.found (by simp), ?_, ?_, ?_, ?_, ?_, ?_, ?_⟩
  · intro node node'
    obtain ⟨path, known⟩ := woven.moduleKinds node node'
    exact ⟨path, kept known (by simp)⟩
  · intro node node'
    obtain ⟨path, known⟩ := woven.importKinds node node'
    exact ⟨path, kept known (by simp)⟩
  · intro node node'
    obtain ⟨result, name, parameters, block, known, has⟩ := woven.functionKinds node node'
    refine ⟨result, name, parameters, block, kept known (by simp), ?_, ?_, ?_⟩
    · intro written isResult
      obtain ⟨name, ranks, known⟩ := has.result written isResult
      exact ⟨name, ranks, kept known (by simp)⟩
    · intro parameter isParameter
      obtain ⟨written, name, known⟩ := has.parameters parameter isParameter
      exact ⟨written, name, kept known (by simp)⟩
    · obtain ⟨others, known⟩ := has.block
      by_cases same : block = body
      · rw [same]
        exact ⟨_, kind_completed_body found⟩
      · rw [kind_completed_old same (Arena.kind_bound known)]
        exact ⟨others, known⟩
  · intro id other recorded
    rw [span_completed] at recorded
    rw [size_completed]
    split at recorded
    · cases recorded
      exact ⟨by omega, inside⟩
    · obtain ⟨bound, limited⟩ := woven.placed recorded
      exact ⟨Nat.lt_succ_of_lt bound, limited⟩
  · rw [span_completed, if_neg (Nat.ne_of_lt (Arena.kind_bound woven.found))]
    exact woven.spanned
  · obtain ⟨region, contains, upheld⟩ := woven.whole
    exact ⟨_, Or.inl contains, upheld.completed found fun _ _ => False.elim⟩
  · intro other otherMember result otherName otherParameters block known
    have before := functionKind otherMember known
    obtain ⟨_, _, _, _, same, has⟩ := woven.functionKinds other otherMember
    rw [before] at same
    cases same
    obtain ⟨region, contains, upheld, apart⟩ := woven.returns other otherMember _ _ _ _ before
    refine ⟨fun id => region id ∨ (region body ∧ id = ⟨tree.arena.size⟩), Or.inl contains, ?_, ?_⟩
    · rw [declared has]
      refine upheld.completed found fun held returned same => ?_
      have equal := apart function member _ _ _ _ owner held
      subst equal
      rw [owner] at before
      cases before
      rw [same]
      exact if_known_some rfl
    · intro third thirdMember thirdResult thirdName thirdParameters thirdBlock thirdKnown held
      have thirdBefore := functionKind thirdMember thirdKnown
      refine apart third thirdMember _ _ _ _ thirdBefore (held.resolve_right ?_)
      rintro ⟨-, rfl⟩
      obtain ⟨_, _, _, _, same, thirdHas⟩ := woven.functionKinds third thirdMember
      rw [thirdBefore] at same
      cases same
      obtain ⟨others, blockKnown⟩ := thirdHas.block
      exact Nat.lt_irrefl _ (Arena.kind_bound blockKnown)

end Woven

end SourceTree

namespace ModuleRoot

variable {limit : Position} {host : Host} {clean : Prop} {module : ModuleRoot}
  {modules imports functions : List NodeId} {tree : SourceTree}

/-- The completion of one function. -/
theorem yields_complete_function {function : NodeId}
    (woven : tree.Woven limit host clean module.node modules imports functions)
    (member : function ∈ functions) :
    Yields (completeFunction function) tree fun _ final =>
      final.Woven limit host clean module.node modules imports functions ∧
      tree.Completing final ∧ final.Closed function := by
  obtain ⟨result, name, parameters, block, owner, has⟩ := woven.functionKinds function member
  unfold completeFunction
  rw [yields_bind, yields_kind, owner]
  cases result with
  | some written => exact ⟨woven, .refl tree, _, _, _, _, owner, by simp⟩
  | none =>
      obtain ⟨statements, found⟩ := has.block
      have below : tree.arena.Reachable module.node block := by
        refine Relation.ReflTransGen.tail (woven.child_reachable
          (List.mem_append_right _ member)) ?_
        rw [Arena.children_of_kind owner, NodeKind.children]
        simp
      obtain ⟨span, place⟩ := Option.isSome_iff_exists.mp (woven.reachable_spanned below)
      have absent : tree.spans.span? ⟨tree.arena.size⟩ = none := by
        cases recorded : tree.spans.span? ⟨tree.arena.size⟩ with
        | none => rfl
        | some other => exact absurd (woven.placed recorded).1 (Nat.lt_irrefl _)
      have added : Yields (do
          let span ← SourceTree.ofExcept ((← get).spans.span block)
          let node ← SourceTree.create (.returnFrom none) (.point span.stop)
          SourceTree.setKind block (.body (statements ++ [node]))) tree fun _ final =>
          final.Woven limit host clean module.node modules imports functions ∧
          tree.Completing final ∧ final.Closed function := by
        rw [yields_bind, yields_get, SpanTable.span_of_found place, yields_bind,
          SourceTree.yields_of_except]
        refine ⟨span, rfl, ?_⟩
        rw [yields_bind]
        refine SourceTree.yields_create_new absent ⟨?_, ?_, ?_⟩
        · exact woven.completed member owner found (woven.placed place).2
        · exact SourceTree.completing_completed found place
        · exact ⟨none, name, parameters, block, SourceTree.kind_completed_other found owner (by simp),
            fun _ => SourceTree.ended_completed found⟩
      unfold completeBody
      simp only
      rw [yields_bind, yields_kind, found]
      simp only
      cases isLast : statements.getLast? with
      | none => exact added
      | some last =>
          simp only
          rw [yields_bind, yields_kind]
          split
          · rename_i value returns
            obtain ⟨earlier, rfl⟩ := List.getLast?_eq_some_iff.mp isLast
            exact ⟨woven, .refl tree, none, name, parameters, block, owner,
              fun _ => ⟨earlier, last, value, found, returns⟩⟩
          · exact added

/-- The completion of all functions. -/
theorem yields_complete_returns
    (woven : tree.Woven limit host clean module.node modules imports functions) :
    Yields module.completeReturns tree fun found final => found = [] ∧
      final.Woven limit host clean module.node modules imports functions ∧
      tree.Completing final ∧ ∀ function ∈ functions, final.Closed function := by
  unfold completeReturns
  rw [yields_bind]
  refine (yields_functions woven).weaken ?_
  rintro listed after ⟨all, unchanged⟩
  rw [all, unchanged, yields_bind]
  refine (yields_forM completeFunction (fun left current =>
    current.Woven limit host clean module.node modules imports functions ∧
    tree.Completing current ∧ left ⊆ functions ∧
    ∀ function ∈ functions, function ∈ left ∨ current.Closed function) ?_ functions tree
    ⟨woven, .refl tree, fun _ => id, fun _ => Or.inl⟩).weaken ?_
  · rintro function left current ⟨woven, earlier, subset, closed⟩
    refine (yields_complete_function woven (subset List.mem_cons_self)).weaken ?_
    rintro _ final ⟨woven, step, own⟩
    refine ⟨woven, earlier.trans step, fun other member => subset (List.mem_cons_of_mem _ member),
      fun other member => ?_⟩
    obtain waiting | done := closed other member
    · obtain rfl | waiting := List.mem_cons.mp waiting
      · exact Or.inr own
      · exact Or.inl waiting
    · exact Or.inr (step.keeps other done)
  · rintro _ final ⟨woven, completing, -, closed⟩
    exact ⟨rfl, woven, completing, fun function member => (closed function member).resolve_left nofun⟩

end ModuleRoot

end ModuleLang
