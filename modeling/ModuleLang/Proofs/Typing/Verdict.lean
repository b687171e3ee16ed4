import ModuleLang.Proofs.Typing.Judging
import ModuleLang.Proofs.Typing.Places
import ModuleLang.Proofs.Typing.Scoping

/-!
Bodies that inference accepts. What one statement left behind is not changed by the
statements after it, so statements that were walked without an error are accepted
one after the other, in the tree that is there behind the last.
-/

namespace ModuleLang.Inference

variable {limit : Position} {origin : SourceTree} {environment : Environment}

/-- The first repeated name is reported. -/
def Unrepeated (before after : InferenceState) : Prop :=
  before.diagnostics <+: after.diagnostics ∧
    (before.duplicates = [] → after.Clean → after.duplicates = [])

theorem unrepeated_frame : OpenFrame Unrepeated where
  refl _ := ⟨List.prefix_refl _, fun fresh _ => fresh⟩
  trans first second := ⟨first.1.trans second.1, fun fresh clean =>
    second.2 (first.2 fresh (clean_of_grown second.1 clean)) clean⟩
  tree _ _ := ⟨List.prefix_refl _, fun fresh _ => fresh⟩
  report _ _ _ := ⟨List.prefix_append _ _, fun fresh _ => fresh⟩
  scopes _ _ := ⟨List.prefix_refl _, fun fresh _ => fresh⟩
  repeated _ _ _ _ error :=
    ⟨List.prefix_append _ _, fun _ clean => absurd clean (not_clean_of_added rfl error)⟩

section Walks

variable {node now : NodeId} {nodes rest found : List NodeId}
  {before middle after : InferenceState}

theorem fresh_leaf {kind : NodeKind NodeId} {check : NodeId → Inference NodeId}
    (known : origin.arena.kind? node = some kind) (plain : kind.isNested = false)
    (admits : kind.isStatement = true) (ready : Ready limit origin node before)
    (ran : Ran (anyStatement environment check node) before now after)
    (fresh : before.duplicates = []) (clean : after.Clean) : after.duplicates = [] := by
  by_cases isJump : origin.arena.IsJump node
  · rcases ran_bind.mp ran with ⟨_, _, got, jumped⟩
    cases got
    rw [show before.tree.arena.kind? node = _ from ready.kind] at jumped
    rcases isJump with found | found
    all_goals
      rw [found] at jumped
      rcases ran_jump jumped clean with ⟨-, rfl, -⟩
      exact fresh
  · exact (unrepeated_frame.keeps_leaf known plain admits isJump ready ran).2 fresh clean

/-- The way through statements is work on them, and what takes their places is
covered by it. -/
theorem Walk.worked (constructed : origin.Constructed limit)
    (walk : Walk limit origin environment nodes before found after)
    (siblings : Siblings origin nodes) (sound : Sound limit origin before) :
    Passed limit origin nodes before after ∧ ∀ now ∈ found, Covered origin nodes before after now := by
  have join : ∀ {node now : NodeId} {rest found : List NodeId}
      {before middle after : InferenceState}, Siblings origin (node :: rest) →
      Sound limit origin before → Passed limit origin [node] before middle →
      Covered origin [node] before middle now →
      Passed limit origin rest middle after ∧ (∀ now ∈ found, Covered origin rest middle after now) →
      Passed limit origin (node :: rest) before after ∧
        ∀ other ∈ now :: found, Covered origin (node :: rest) before after other := by
    intro node now rest found before middle after siblings sound work covered later
    refine ⟨work.append sound later.1 (fun id inside => ?_) fun id => siblings.apart constructed,
      fun other member => ?_⟩
    · exact siblings.bounded constructed (below_cons.mpr (Or.inr inside))
    · unfold Covered
      rw [below_cons, made_split work.leaves.size later.1.leaves.size]
      rcases List.mem_cons.mp member with rfl | member
      · rcases covered with below | made
        · exact Or.inl (Or.inl below)
        · exact Or.inr (Or.inl made)
      · rcases later.2 other member with below | made
        · exact Or.inl (Or.inr below)
        · exact Or.inr (Or.inr made)
  have self : ∀ {node : NodeId} {before after : InferenceState}, Covered origin [node] before after node :=
    Visits.child_covered (by simp)
  induction walk with
  | nil => exact ⟨.nil _ sound, List.forall_mem_nil _⟩
  | leaf check known plain admits ready ran taken later ih =>
      exact join siblings sound taken.work taken.covered (ih siblings.tail taken.work.sound)
  | body known ready inside work later _ ih =>
      exact join siblings sound work self (ih siblings.tail work.sound)
  | condition known ready asked askedWork thenWalk elseWalk work later _ _ ih =>
      exact join siblings sound work self (ih siblings.tail work.sound)
  | loop known ready asked askedWork inside work later _ ih =>
      exact join siblings sound work self (ih siblings.tail work.sound)

/-- What is covered by one of some siblings is not below the others. -/
theorem Siblings.uncovered (constructed : origin.Constructed limit)
    (siblings : Siblings origin (node :: rest)) (start : origin.arena.size ≤ before.size) {id : NodeId}
    (covered : Covered origin [node] before after id) : ¬ Below origin rest id := by
  rcases covered with inside | ⟨new, -⟩
  · exact siblings.apart constructed inside
  · intro below
    have old := siblings.bounded constructed (below_cons.mpr (Or.inr below))
    exact Nat.not_lt.mpr (Nat.le_trans start new) old

/-- Statements that were walked without an error are accepted. -/
structure Proceeded (environment : Environment) (found : List NodeId)
    (before after : InferenceState) : Prop where
  fresh : after.duplicates = []
  accepted : ∃ reports, after.diagnostics = before.diagnostics ++ reports ∧
    Proceeds environment before.result after.tree before.loopDepth before.scopes found after.scopes
      reports

/-- Statements stay accepted while work is done on their siblings. -/
theorem Proceeds.later {result : Option Ty} {loops : Nat} {names last : Scopes}
    {reports : List Diagnostic} (constructed : origin.Constructed limit)
    (siblings : Siblings origin (node :: rest)) (start : origin.arena.size ≤ before.size)
    (work : Passed limit origin [node] before middle)
    (covered : Covered origin [node] before middle now)
    (leaves : Leaves (Below origin rest) middle after)
    (proceeds : Proceeds environment result middle.tree loops names [now] last reports) :
    Proceeds environment result after.tree loops names [now] last reports := by
  apply proceeds.frame
  exact work.settled.unchanged (by simpa using covered) leaves fun _ =>
    siblings.uncovered constructed start

theorem Proceeded.cons (constructed : origin.Constructed limit)
    (siblings : Siblings origin (node :: rest)) (start : origin.arena.size ≤ before.size)
    (work : Passed limit origin [node] before middle)
    (covered : Covered origin [node] before middle now)
    (depth : middle.loopDepth = before.loopDepth) (leaves : Leaves (Below origin rest) middle after)
    (first : Proceeded environment [now] before middle)
    (second : Proceeded environment found middle after) :
    Proceeded environment (now :: found) before after := by
  rcases first.accepted with ⟨said, reported, accepted⟩
  rcases second.accepted with ⟨more, also, later⟩
  rw [work.leaves.result, depth] at later
  refine ⟨second.fresh, said ++ more, ?_, ?_⟩
  · rw [also, reported, List.append_assoc]
  · exact (accepted.later constructed siblings start work covered leaves).append later

theorem Approves.proceeded (approves : Approves environment now before after)
    (fresh : after.duplicates = []) : Proceeded environment [now] before after := by
  rcases approves with ⟨reports, reported, complies⟩
  have proceeds := Proceeds.step complies .nil
  rw [List.append_nil] at proceeds
  exact ⟨fresh, reports, reported, proceeds⟩

end Walks

section Nested

variable {node condition : NodeId} {before first second after : InferenceState}

/-- A condition that was checked without an error is accepted. -/
theorem approved_predicate {result : Unit} (constructed : origin.Constructed limit)
    (admitted : origin.arena.Admitted .expression condition)
    (ready : Ready limit origin condition before)
    (ran : Ran (predicate environment condition) before result after) (clean : after.Clean) :
    Approved environment before.scopes [condition] before after ∧
      IfKnown (after.type? condition) (· = .bool) := by
  rcases (yields_predicate (fun _ => False) constructed admitted ready.sound
    ready.untouched).of_ran ran with ⟨-, bool⟩
  rcases ran_bind.mp ran with ⟨type, middle, inferred, checked⟩
  have quiet : after = middle := by
    split at checked
    · cases checked
      rfl
    · split at checked
      · exact absurd clean (not_clean_of_report checked rfl)
      · cases checked
        rfl
  subst quiet
  exact ⟨approved_of_expression constructed admitted ready inferred clean, bool clean⟩

/-- A body opens a frame and leaves none behind. -/
theorem proceeded_body {statements inner : List NodeId} {visited : InferenceState}
    (constructed : origin.Constructed limit)
    (known : origin.arena.kind? node = some (.body statements))
    (ready : Ready limit origin node before)
    (inside : Walk limit origin environment statements (opened before) inner visited)
    (accepted : Proceeded environment inner (opened before) visited) :
    Proceeded environment [node] before (closed visited node inner) := by
  have pushed : Noted limit origin (fun _ => False) before (opened before) :=
    noted_of_scopes ready.sound rfl rfl rfl fun _ member => Or.inl (Scopes.nodes_push member)
  rcases inside.worked constructed (siblings_of_kind known (List.Sublist.refl _)) pushed.sound with
    ⟨work, covered⟩
  have bound : node.index < visited.size := Nat.lt_of_lt_of_le (Arena.kind_bound known)
    (Nat.le_trans ready.sound.size inside.leaves.size)
  have leaves : Leaves (fun id => id = node) visited
      (visited.withArena (visited.tree.arena.setKind node (.body inner))) :=
    leaves_with_arena (Arena.size_setKind _ _ _) fun id apart =>
      (Arena.node_set_kind _ _ _ _).trans (if_neg (Ne.symm apart))
  have unchanged : Unchanged visited.tree
      (visited.withArena (visited.tree.arena.setKind node (.body inner))).tree inner :=
    work.settled.unchanged covered leaves fun _ held =>
      Ne.symm (body_apart constructed known ready held)
  rcases accepted.accepted with ⟨reports, reported, proceeds⟩
  have held : (visited.tree.arena.setKind node (.body inner)).kind? node = some (.body inner) :=
    Arena.kind_set_kind bound _
  have whole := Proceeds.body held (proceeds.frame unchanged) .nil
  rw [List.append_nil] at whole
  exact ⟨accepted.fresh, reports, reported, whole⟩

/-- The blocks of a statement are bodies where it was worked on. -/
theorem block_image {parent block : NodeId} (constructed : origin.Constructed limit)
    {kind : NodeKind NodeId} (known : origin.arena.kind? parent = some kind)
    (slot : (Category.body, block) ∈ kind.slots) (work : Passed limit origin [parent] before after) :
    ∃ statements, after.tree.arena.kind? block = some (.body statements) := by
  rcases constructed.admitted known _ slot with ⟨inner, was, admits⟩
  have inside : Below origin [parent] block := by
    apply below_singleton.mpr
    apply Arena.Reachable.of_child
    exact Arena.child_of_kind known (NodeKind.slot_is_child slot)
  rcases work.image inside was with ⟨image, found, alike⟩
  cases inner with
  | body statements =>
      cases alike
      exact ⟨_, found⟩
  | _ => cases admits

/-- A statement is not changed by the work on what it holds. -/
theorem kept_with_children {kind : NodeKind NodeId} (constructed : origin.Constructed limit)
    (known : origin.arena.kind? node = some kind) (ready : Ready limit origin node before)
    (leaves : Leaves (Below origin kind.children) before after) :
    after.tree.arena.kind? node = some kind := by
  have bound : node.index < before.size :=
    Nat.lt_of_lt_of_le (Arena.kind_bound known) ready.sound.size
  refine (Arena.kind_of_node (leaves.node node bound ?_)).trans (ready.kind.trans known)
  rintro ⟨child, slot, below⟩
  rw [← Arena.children_of_kind known] at slot
  exact constructed.forest.parent_not_below slot below

/-- A condition and the statement around it are accepted while its blocks are walked. -/
theorem condition_later {kind : NodeKind NodeId} {blocks : List NodeId}
    (constructed : origin.Constructed limit) (known : origin.arena.kind? node = some kind)
    (parts : kind.children = condition :: blocks)
    (slot : (Category.expression, condition) ∈ kind.slots) (ready : Ready limit origin node before)
    (asked : Ran (predicate environment condition) before ⟨⟩ first)
    (work : Passed limit origin [condition] before first)
    (leaves : Leaves (Below origin blocks) first after) (clean : first.Clean) :
    ∃ reports, first.diagnostics = before.diagnostics ++ reports ∧
      Accepted environment before.scopes after.tree [condition] reports ∧
      IfKnown (after.tree.arena.type? condition) (· = .bool) ∧
      after.tree.arena.kind? node = some kind := by
  have child : condition ∈ kind.children := by simp [parts]
  have siblings : Siblings origin (condition :: blocks) :=
    parts ▸ siblings_of_kind known (List.Sublist.refl kind.children)
  rcases approved_predicate constructed (constructed.admitted known _ slot)
    (ready.below known child) asked clean with ⟨⟨reports, reported, accepted⟩, bool⟩
  have covered : ∀ other ∈ [condition], Covered origin [condition] before first other :=
    fun _ => Visits.child_covered
  have unchanged : Unchanged first.tree after.tree [condition] :=
    work.settled.unchanged covered leaves fun _ =>
      siblings.uncovered constructed ready.sound.size
  refine ⟨reports, reported, accepted.frame unchanged, ?_, ?_⟩
  · rw [unchanged.type condition (by simp)]
    exact bool
  · apply kept_with_children constructed known ready
    rw [parts]
    exact work.leaves.cons leaves

end Nested

section Blocks

variable {node condition : NodeId} {before first second third : InferenceState}

theorem proceeded_condition {thenBody : NodeId} {elseBody : Option NodeId}
    (constructed : origin.Constructed limit)
    (known : origin.arena.kind? node = some (.condition condition thenBody elseBody))
    (ready : Ready limit origin node before)
    (asked : Ran (predicate environment condition) before ⟨⟩ first)
    (askedWork : Passed limit origin [condition] before first)
    (thenWalk : Walk limit origin environment [thenBody] first [thenBody] second)
    (elseWalk : Walk limit origin environment elseBody.toList second elseBody.toList third)
    (work : Passed limit origin [node] before third) (clean : first.Clean)
    (thenPart : Proceeded environment [thenBody] first second)
    (elsePart : Proceeded environment elseBody.toList second third) :
    Proceeded environment [node] before third := by
  have same : Undeclared before first := undeclared_frame.keeps_predicate environment _ _ _ _ asked
  have depth : first.loopDepth = before.loopDepth :=
    (quiet_frame.keeps_predicate environment _ _ _ _ asked).1
  have blocks := thenWalk.append elseWalk
  have siblings : Siblings origin (thenBody :: elseBody.toList) :=
    siblings_of_kind known (List.sublist_cons_self _ _)
  have start : origin.arena.size ≤ first.size :=
    Nat.le_trans ready.sound.size askedWork.leaves.size
  rcases condition_later constructed known rfl (by simp [NodeKind.slots]) ready asked askedWork
    blocks.leaves clean with ⟨reports, reported, accepted, bool, held⟩
  rcases thenWalk.worked constructed siblings.head askedWork.sound with ⟨thenWork, covered⟩
  rcases thenPart.accepted with ⟨said, saying, taken⟩
  rcases elsePart.accepted with ⟨more, adding, other⟩
  rw [askedWork.leaves.result, depth, same.scopes] at taken
  rw [thenWalk.leaves.result, askedWork.leaves.result, (thenWalk.counted constructed).1, depth]
    at other
  have taken := taken.later constructed siblings start thenWork (covered _ (by simp))
    elseWalk.leaves
  refine ⟨elsePart.fresh, reports ++ said ++ more ++ [], ?_, ?_⟩
  · rw [adding, saying, reported]
    simp only [List.append_assoc, List.append_nil]
  · apply Proceeds.condition held accepted bool _ taken other .nil
    intro block member
    apply block_image constructed known _ work
    rcases List.mem_cons.mp member with rfl | member
    · simp [NodeKind.slots]
    · simp [NodeKind.slots, Option.mem_def.mp (Option.mem_toList.mp member)]

theorem proceeded_loop {block : NodeId} (constructed : origin.Constructed limit)
    (known : origin.arena.kind? node = some (.loop condition block))
    (ready : Ready limit origin node before)
    (asked : Ran (predicate environment condition) before ⟨⟩ first)
    (askedWork : Passed limit origin [condition] before first)
    (inside : Walk limit origin environment [block] (deeper first) [block] second)
    (work : Passed limit origin [node] before (shallower second)) (clean : first.Clean)
    (inner : Proceeded environment [block] (deeper first) second) :
    Proceeded environment [node] before (shallower second) := by
  have same : Undeclared before first := undeclared_frame.keeps_predicate environment _ _ _ _ asked
  have depth : first.loopDepth = before.loopDepth :=
    (quiet_frame.keeps_predicate environment _ _ _ _ asked).1
  have leaves : Leaves (Below origin [block]) first (shallower second) :=
    have walked := inside.leaves
    ⟨walked.size, walked.node, walked.span, walked.bound, walked.result, walked.diagnostics⟩
  rcases condition_later constructed known rfl (by simp [NodeKind.slots]) ready asked askedWork
    leaves clean with ⟨reports, reported, accepted, bool, held⟩
  have slot : (Category.body, block) ∈ (NodeKind.loop condition block).slots := by
    simp [NodeKind.slots]
  rcases block_image constructed known slot work with ⟨statements, body⟩
  rcases inner.accepted with ⟨said, saying, looped⟩
  change Proceeds environment first.result second.tree (first.loopDepth + 1) first.scopes [block]
    second.scopes said at looped
  rw [askedWork.leaves.result, depth, same.scopes] at looped
  refine ⟨inner.fresh, reports ++ said ++ [], ?_, .loop held accepted bool body looped .nil⟩
  change second.diagnostics = _
  rw [saying]
  change first.diagnostics ++ said = _
  rw [reported, List.append_assoc, List.append_nil]

end Blocks

/-- Statements that are walked without an error are accepted. -/
theorem Walk.proceeds (constructed : origin.Constructed limit) {nodes found : List NodeId}
    {before after : InferenceState}
    (walk : Walk limit origin environment nodes before found after)
    (siblings : Siblings origin nodes) (fresh : before.duplicates = []) (clean : after.Clean) :
    Proceeded environment found before after := by
  induction walk with
  | nil => exact ⟨fresh, [], (List.append_nil _).symm, .nil⟩
  | leaf check known plain admits ready ran taken later ih =>
      have early := later.leaves.clean clean
      have still := fresh_leaf known plain admits ready ran fresh early
      have approves := approves_leaf constructed known plain admits ready fresh ran taken early
      exact .cons constructed siblings ready.sound.size taken.work taken.covered
        (counted_leaf constructed known plain admits ready ran).1 later.leaves
        (approves.proceeded still) (ih siblings.tail still clean)
  | body known ready inside work later ihInside ih =>
      have inner := ihInside (siblings_of_kind known (List.Sublist.refl _)) fresh
        (later.leaves.clean clean)
      have first := proceeded_body constructed known ready inside inner
      exact .cons constructed siblings ready.sound.size work (Visits.child_covered (by simp))
        (inside.counted constructed).1 later.leaves first (ih siblings.tail first.fresh clean)
  | @condition node condition thenBody elseBody _ _ before first second third _ known ready asked
      askedWork thenWalk elseWalk work later ihThen ihElse ih =>
      have early := later.leaves.clean clean
      have middle := elseWalk.leaves.clean early
      have start := thenWalk.leaves.clean middle
      have blocks : Siblings origin (thenBody :: elseBody.toList) :=
        siblings_of_kind known (List.sublist_cons_self _ _)
      have same := undeclared_frame.keeps_predicate environment _ _ _ _ asked
      have quiet := quiet_frame.keeps_predicate environment _ _ _ _ asked
      have thenPart := ihThen blocks.head (same.duplicates.trans fresh) middle
      have elsePart := ihElse blocks.tail thenPart.fresh early
      have first := proceeded_condition constructed known ready asked askedWork thenWalk elseWalk
        work start thenPart elsePart
      have depth : third.loopDepth = before.loopDepth :=
        (elseWalk.counted constructed).1.trans ((thenWalk.counted constructed).1.trans quiet.1)
      exact .cons constructed siblings ready.sound.size work (Visits.child_covered (by simp)) depth
        later.leaves first (ih siblings.tail first.fresh clean)
  | @loop node condition block _ _ before first second _ known ready asked askedWork inside work
      later ihInside ih =>
      have early : second.Clean := later.leaves.clean clean
      have start : first.Clean := inside.leaves.clean early
      have same := undeclared_frame.keeps_predicate environment _ _ _ _ asked
      have quiet := quiet_frame.keeps_predicate environment _ _ _ _ asked
      have blocks : Siblings origin [block] := siblings_of_kind known (by simp [NodeKind.children])
      have inner := ihInside blocks (same.duplicates.trans fresh) early
      have whole := proceeded_loop constructed known ready asked askedWork inside work start inner
      have depth : (shallower second).loopDepth = before.loopDepth := by
        have counted := (inside.counted constructed).1
        simp only [shallower, deeper] at counted ⊢
        rw [counted, Nat.add_sub_cancel, quiet.1]
      exact .cons constructed siblings ready.sound.size work (Visits.child_covered (by simp)) depth
        later.leaves whole (ih siblings.tail whole.fresh clean)

end ModuleLang.Inference
