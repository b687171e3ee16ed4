import ModuleLang.Proofs.Typing.Accounting
import ModuleLang.Proofs.Typing.Repeating

/-!
Inference once more over bodies that it accepts. A statement that complies declares
what it declared before and is not rewritten: its value fits its target as it is, and
the type that was written down for a variable is read as the type that it has.
-/

namespace ModuleLang.Inference

section Statements

variable {limit : Position} {environment : Environment} {origin tree : SourceTree}
  {result : Option Ty} {loops : Nat} {names last : Scopes} {root node : NodeId}
  {nodes : List NodeId} {reports all : List Diagnostic}

theorem repeats_store {operator : AssignOperator} {value : NodeId} {targetType valueType : Option Ty}
    (rule : IfKnown targetType fun target => IfKnown valueType fun source =>
      operator.Obeys target source) :
    Repeats tree result loops names (store environment node operator value targetType valueType) ⟨⟩
      names [] := by
  unfold store
  split
  · rename_i target
    split
    · rename_i source
      rcases AssignOperator.exact_of_obeys (rule target rfl source rfl) with ⟨takes, fits⟩
      rw [takes, fits]
      exact repeats_pure _
    · exact repeats_pure _
  · exact repeats_pure _

theorem repeats_define {definition : NodeId} {name : String} (type : Option Ty)
    (unseen : names.lookup name = none) (free : names.nested name = none) :
    Repeats tree result loops names (define environment definition name type) ⟨⟩
      (names.declare name ⟨type, definition, .inner⟩) [] := by
  apply repeats_scopes.before
  rw [unseen, free]
  exact repeats_on_scopes _

theorem repeats_jump {keyword : Keyword} (inside : loops ≠ 0) :
    Repeats tree result loops names (jump environment node keyword) ⟨⟩ names [] := by
  apply repeats_get
  intro said
  rw [if_neg inside]
  exact repeats_pure _

theorem repeats_return {value : Option NodeId} {found : Option (Option Ty)}
    (visited : Repeats tree result loops names (value.mapM (expression environment))
      found names reports)
    (same : found = value.map tree.arena.type?)
    (rule : (NodeKind.returnFrom value).Obeys tree.arena.type? none (· = result)) :
    Repeats tree result loops names (returnFrom environment node value) ⟨⟩ names reports := by
  apply visited.behind
  subst same
  apply repeats_get
  intro said
  cases result with
  | none => exact repeats_pure _
  | some expected =>
      cases value with
      | none =>
          cases rule _ rfl expected rfl
          exact repeats_pure _
      | some value =>
          rcases rule _ rfl expected rfl with ⟨solid, fits⟩
          simp only [Option.map_some, Option.join_some]
          cases expected with
          | void => exact absurd rfl solid
          | _ =>
              cases known : tree.arena.type? value with
              | none => exact repeats_pure _
              | some type =>
                  simp only [returnValue, fits type known]
                  exact repeats_pure _

/-- A value that is assigned is a call without a result nowhere. -/
theorem repeats_assigned_type {value : NodeId}
    (visited : Repeats tree result loops names (expression environment value)
      (tree.arena.type? value) names reports)
    (solid : tree.arena.type? value ≠ some .void) :
    Repeats tree result loops names (assignedType environment value) (tree.arena.type? value) names
      reports := by
  apply visited.behind
  split
  · rename_i void
    exact absurd void solid
  · exact repeats_pure _

theorem repeats_predicate {condition : NodeId}
    (visited : Repeats tree result loops names (expression environment condition)
      (tree.arena.type? condition) names reports)
    (bool : IfKnown (tree.arena.type? condition) (· = .bool)) :
    Repeats tree result loops names (predicate environment condition) ⟨⟩ names reports := by
  apply visited.behind
  cases known : tree.arena.type? condition with
  | none => exact repeats_pure _
  | some type =>
      cases bool type known
      exact repeats_pure _

section Assignments

variable {operator : AssignOperator} {target value written : NodeId} {name : String}
  {said more : List Diagnostic}

/-- An assignment to something that is there already. -/
theorem repeats_placed {kind : NodeKind NodeId}
    (assigned : Repeats tree result loops names (assignedType environment value)
      (tree.arena.type? value) names said)
    (there : tree.arena.kind? target = some kind) (place : kind.isPlace = true)
    (visible : ∀ name, kind = .member name → more = [] ∧ ∃ binding,
      names.lookup name = some binding ∧ tree.arena.type? target = binding.type)
    (visited : Repeats tree result loops names (expression environment target)
      (tree.arena.type? target) names more)
    (rule : (NodeKind.assign operator target value).Obeys tree.arena.type? none (· = result)) :
    Repeats tree result loops names (assignment environment node operator target value) ⟨⟩ names
      (said ++ more) := by
  refine assigned.bind ((repeats_kind target).before ?_)
  rw [there]
  cases kind with
  | member name =>
      rcases visible name rfl with ⟨rfl, binding, seen, typed⟩
      apply repeats_scopes.before
      rw [seen]
      refine (repeats_set_type typed).before (repeats_store ?_)
      rw [← typed]
      exact rule
  | memberAccess | indexAccess => exact visited.behind (repeats_store rule)
  | _ => cases place

/-- An assignment that defines a variable, whose written type is read as before. -/
theorem repeats_defined
    (assigned : Repeats tree result loops names (assignedType environment value)
      (tree.arena.type? value) names said)
    (defines : tree.arena.kind? target = some (.definition (some written) name))
    (resolved : Repeats tree result loops names (resolveType environment written)
      (tree.arena.type? written) names more)
    (typed : tree.arena.type? target = tree.arena.type? written)
    (rule : (NodeKind.assign .assign target value).Obeys tree.arena.type? none (· = result))
    (unseen : names.lookup name = none) (free : names.nested name = none) :
    Repeats tree result loops names (assignment environment node .assign target value) ⟨⟩
      (names.declare name ⟨tree.arena.type? target, target, .inner⟩) (said ++ more) := by
  refine assigned.bind ((repeats_kind target).before ?_)
  rw [defines, typed]
  refine resolved.behind ((repeats_set_type typed).before ?_)
  refine (repeats_define _ unseen free).before (repeats_store ?_)
  rw [← typed]
  exact rule

end Assignments

/-- An accepted node that stands for a value. -/
theorem Accepted.repeats_whole
    (accepted : Accepted environment names tree [node] reports)
    (engrafted : SourceTree.Engrafted limit origin tree root)
    (above : tree.arena.Reachable root node) (admitted : tree.arena.Admitted .expression node) :
    Repeats tree result loops names (expression environment node) (tree.arena.type? node) names
      reports :=
  repeats_expression (accepted.repeated_one result loops engrafted above) engrafted above admitted

/-- An accepted name is visible. -/
theorem Accepted.visible {name : String} (accepted : Accepted environment names tree [node] reports)
    (found : tree.arena.kind? node = some (.member name)) : reports = [] ∧ ∃ binding,
      names.lookup name = some binding ∧ tree.arena.type? node = binding.type := by
  cases accepted with
  | cons held below rule warned after =>
      cases found.symm.trans held
      cases below
      cases warned
      cases after
      exact ⟨rfl, rule⟩

/-- An accepted definition has the type that is written in it. -/
theorem Accepted.definition {written : NodeId} {name : String}
    (accepted : Accepted environment names tree [node] reports)
    (found : tree.arena.kind? node = some (.definition (some written) name)) :
    Accepted environment names tree [written] reports ∧
      tree.arena.type? node = tree.arena.type? written := by
  cases accepted with
  | cons held below rule warned after =>
      cases found.symm.trans held
      cases warned
      cases after
      rw [List.append_nil, List.append_nil]
      exact ⟨below, rule⟩

/-- A statement that complies is found again what it is, among names whose types are
read as they print. -/
theorem Complies.repeats {check : NodeId → Inference NodeId}
    (complies : Complies environment result tree loops names node last reports)
    (engrafted : SourceTree.Engrafted limit origin tree root)
    (above : tree.arena.Reachable root node)
    (hands : Hands environment tree (tree.arena.Reads environment.host) all [node])
    (within : reports ⊆ all)
    (bound : Bound tree.arena (tree.arena.Reads environment.host) names)
    (typed : ∀ id name, tree.arena.Reachable node id →
      tree.arena.kind? id ≠ some (.definition none name)) :
    Repeats tree result loops names (anyStatement environment check node) node last reports := by
  have child : ∀ {kind child}, tree.arena.kind? node = some kind → child ∈ kind.children →
      tree.arena.Reachable root child := by
    intro kind child found member
    apply above.tail
    exact Arena.child_of_kind found member
  have assigned : ∀ {operator target value said},
      tree.arena.kind? node = some (.assign operator target value) →
      Accepted environment names tree [value] said → tree.arena.type? value ≠ some .void →
      Repeats tree result loops names (assignedType environment value) (tree.arena.type? value) names
        said := by
    intro operator target value said found accepted solid
    have slot : (Category.expression, value) ∈ (NodeKind.assign operator target value).slots := by
      simp [NodeKind.slots]
    exact repeats_assigned_type (accepted.repeats_whole engrafted
      (child found (NodeKind.slot_is_child slot))
      (engrafted.sorted above found slot (by simp))) solid
  cases complies with
  | @evaluate kind _ found alone parts =>
      have admitted : tree.arena.Admitted .expression node := by
        refine ⟨kind, found, ?_⟩
        cases kind <;> first | rfl | cases alone
      have visited : Repeats tree result loops names (expression environment node)
          (tree.arena.type? node) names reports := parts.repeats_whole engrafted above admitted
      apply (repeats_kind node).before
      rw [found]
      cases kind with
      | call | construct | unary => exact visited.behind (repeats_pure _)
      | _ => cases alone
  | @returns value _ found parts rule =>
      apply (repeats_kind node).before
      rw [found]
      refine Repeats.behind (repeats_return ?_ rfl rule) (repeats_pure _)
      cases value with
      | none =>
          cases parts
          exact repeats_pure _
      | some value =>
          have slot : (Category.expression, value) ∈ (NodeKind.returnFrom (some value)).slots := by
            simp [NodeKind.slots]
          rw [Option.mapM_some, map_eq_pure_bind]
          exact (parts.repeats_whole engrafted (child found (by simp [NodeKind.children]))
            (engrafted.sorted above found slot (by simp))).behind (repeats_pure _)
  | jump isJump inside =>
      apply (repeats_kind node).before
      rcases isJump with found | found
      all_goals
        rw [found]
        exact (repeats_jump inside).before (repeats_pure _)
  | @assign operator target value kind _ found parts solid rule there place =>
      rcases Accepted.split (show Accepted environment names tree ([value] ++ [target]) reports
        from parts) with ⟨said, more, rfl, first, second⟩
      have admitted : tree.arena.Admitted .expression target := by
        refine ⟨kind, there, ?_⟩
        cases kind <;> first | rfl | cases place
      apply (repeats_kind node).before
      rw [found]
      refine Repeats.behind (repeats_placed (assigned found first solid) there place ?_
        (second.repeats_whole engrafted (child found (by simp [NodeKind.children])) admitted) rule)
        (repeats_pure _)
      rintro name rfl
      exact second.visible there
  | @define target value written name _ found parts solid rule defines unseen free =>
      rcases Accepted.split (show Accepted environment names tree ([value] ++ [target]) reports
        from parts) with ⟨said, more, rfl, first, second⟩
      rcases second.definition defines with ⟨inner, own⟩
      have reach := child found (show target ∈ _ by simp [NodeKind.children])
      have slot : (Category.type, written) ∈ (NodeKind.definition (some written) name).slots := by
        simp [NodeKind.slots]
      have inside : written ∈ tree.arena.children target :=
        Arena.child_of_kind defines (NodeKind.slot_is_child slot)
      have resolved := (inner.repeated_one result loops engrafted (reach.tail inside)).type
        (engrafted.sorted reach defines slot (by simp))
      apply (repeats_kind node).before
      rw [found]
      exact Repeats.behind (repeats_defined (assigned found first solid) defines resolved own rule
        unseen free) (repeats_pure _)
  | @introduce target value written name type _ found parts held empty solid defines own spells
      unseen free =>
      have read := (hands.below found (by simp [NodeKind.children])).carried bound parts within value
        (by simp)
      have readable := ((read type held).resolve_left empty).resolve_left solid
      have solid : tree.arena.type? value ≠ some .void := by
        rw [held]
        exact fun same => solid (Option.some.inj same)
      have resolved : Repeats tree result loops names (resolveType environment written)
          (tree.arena.type? written) names [] := repeats_resolve spells.1 spells.2 readable
      have rule : (NodeKind.assign .assign target value).Obeys tree.arena.type? none
          (· = result) := by
        simp only [NodeKind.Obeys, own, held]
        exact if_known_some (if_known_some (assignability_self type))
      apply (repeats_kind node).before
      rw [found, ← own, ← List.append_nil reports]
      exact Repeats.behind (repeats_defined (assigned found parts solid) defines resolved
        (own.trans spells.2.symm) rule unseen free) (repeats_pure _)
  | @guess target value name _ found parts empty defines untyped =>
      refine absurd defines (typed target name (.of_child ?_))
      rw [Arena.children_of_kind found]
      simp [NodeKind.children]

end Statements

section Bodies

variable {limit : Position} {environment : Environment} {origin tree : SourceTree}
  {result : Option Ty} {loops budget : Nat} {names inner last : Scopes} {root node child : NodeId}
  {nodes statements : List NodeId} {kind : NodeKind NodeId} {reports all : List Diagnostic}

/-- A budget that is enough for a statement and those that it holds. -/
def Shallow (origin : SourceTree) (budget : Nat) (node : NodeId) : Prop :=
  0 < budget ∧ (node.index < origin.arena.size → node.index < budget)

theorem Shallow.more (shallow : Shallow origin budget node) : Shallow origin (budget + 1) node :=
  ⟨Nat.succ_pos _, fun old => Nat.lt_succ_of_lt (shallow.2 old)⟩

/-- A statement that holds others was parsed. -/
theorem old_of_nested (engrafted : SourceTree.Engrafted limit origin tree root)
    (above : tree.arena.Reachable root node) (found : tree.arena.kind? node = some kind)
    (nested : kind.isNested = true) : node.index < origin.arena.size := by
  rcases engrafted.each node above with ⟨other, same, traced, -⟩
  cases found.symm.trans same
  cases traced with
  | parsed was _ _ => exact Arena.kind_bound was
  | added _ form => cases form <;> cases nested

/-- What a statement holds was parsed before it, or stands for what was. -/
theorem Shallow.below (shallow : Shallow origin (budget + 1) node)
    (engrafted : SourceTree.Engrafted limit origin tree root)
    (above : tree.arena.Reachable root node) (old : node.index < origin.arena.size)
    (slot : child ∈ tree.arena.children node) : Shallow origin budget child := by
  rcases engrafted.seats_of_child above old slot with ⟨place, seats⟩
  have lower := engrafted.constructed.forest.below seats.place_is_child
  have bound := shallow.2 old
  refine ⟨by omega, fun early => ?_⟩
  rcases seats.cases with rfl | ⟨new, -⟩
  · omega
  · exact absurd early (Nat.not_lt.mpr new)

theorem repeats_body {check : NodeId → Inference NodeId}
    (found : tree.arena.kind? node = some (.body statements))
    (inside : Repeats tree result loops names.push (statements.mapM check) statements inner
      reports) : Repeats tree result loops names (body check node) ⟨⟩ inner.pop reports := by
  apply (repeats_kind node).before
  rw [found]
  apply (repeats_on_scopes _).before
  exact inside.behind ((repeats_set_kind found).before (repeats_on_scopes _))

/-- A body that is a statement is checked as a body. -/
theorem Repeats.body_of_statement (found : tree.arena.kind? node = some (.body statements))
    (repeats : Repeats tree result loops names
      ([node].mapM (statementWithin environment (budget + 1))) [node] last reports) :
    Repeats tree result loops names (body (statementWithin environment budget) node) ⟨⟩ last
      reports := by
  intro said
  have ran := repeats said
  rw [List.mapM_cons] at ran
  rcases ran_bind.mp ran with ⟨_, _, first, rest⟩
  rcases ran_bind.mp rest with ⟨_, _, none, rest⟩
  rw [List.mapM_nil] at none
  cases none
  cases rest
  rcases ran_bind.mp first with ⟨_, _, got, checked⟩
  cases got
  rw [found] at checked
  rcases ran_bind.mp checked with ⟨_, _, bodied, done⟩
  cases done
  exact bodied

section Nested

variable {check : NodeId → Inference NodeId} {condition thenBody block : NodeId}
  {elseBody : Option NodeId} {first second : Scopes} {asked said other : List Diagnostic}

theorem Accepted.repeats_asked
    (accepted : Accepted environment names tree [condition] asked)
    (engrafted : SourceTree.Engrafted limit origin tree root)
    (above : tree.arena.Reachable root node) (found : tree.arena.kind? node = some kind)
    (slot : (Category.expression, condition) ∈ kind.slots)
    (bool : IfKnown (tree.arena.type? condition) (· = .bool)) :
    Repeats tree result loops names (predicate environment condition) ⟨⟩ names asked := by
  have reach : tree.arena.Reachable root condition :=
    above.tail (Arena.child_of_kind found (NodeKind.slot_is_child slot))
  exact repeats_predicate (accepted.repeats_whole engrafted reach
    (engrafted.sorted above found slot nofun)) bool

theorem repeats_condition
    (found : tree.arena.kind? node = some (.condition condition thenBody elseBody))
    (asking : Repeats tree result loops names (predicate environment condition) ⟨⟩ names asked)
    (thenPart : Repeats tree result loops names (body check thenBody) ⟨⟩ first said)
    (elsePart : Repeats tree result loops first (elseBody.forM (body check)) ⟨⟩ second other) :
    Repeats tree result loops names (anyStatement environment check node) node second
      (asked ++ said ++ other) := by
  apply (repeats_kind node).before
  rw [found, List.append_assoc]
  exact asking.bind (thenPart.bind (elsePart.behind (repeats_pure _)))

theorem repeats_loop (found : tree.arena.kind? node = some (.loop condition block))
    (asking : Repeats tree result loops names (predicate environment condition) ⟨⟩ names asked)
    (inside : Repeats tree result (loops + 1) names (body check block) ⟨⟩ last said) :
    Repeats tree result loops names (anyStatement environment check node) node last
      (asked ++ said) := by
  have looped : Repeats tree result loops names (whileLoop environment check condition block) ⟨⟩ last
      (asked ++ said) := by
    refine Repeats.bind asking fun before => ?_
    exact ran_bind.mpr ⟨_, _, rfl, ran_bind.mpr ⟨_, _, inside before, rfl⟩⟩
  apply (repeats_kind node).before
  rw [found]
  exact looped.behind (repeats_pure _)

end Nested

/-- Statements that are accepted are found again what they are. -/
theorem Proceeds.repeats
    (proceeds : Proceeds environment result tree loops names nodes last reports)
    (engrafted : SourceTree.Engrafted limit origin tree root)
    (hands : Hands environment tree (tree.arena.Reads environment.host) all [root])
    (typed : ∀ id name, tree.arena.Reachable root id →
      tree.arena.kind? id ≠ some (.definition none name))
    (within : reports ⊆ all) (bound : Bound tree.arena (tree.arena.Reads environment.host) names)
    (above : ∀ node ∈ nodes, tree.arena.Reachable root node)
    (shallow : ∀ node ∈ nodes, Shallow origin budget node) :
    Repeats tree result loops names (nodes.mapM (statementWithin environment budget)) nodes last
      reports := by
  have reached : ∀ {nodes}, (∀ node ∈ nodes, tree.arena.Reachable root node) →
      Hands environment tree (tree.arena.Reads environment.host) all nodes := fun each =>
    hands.reached fun node member => ⟨root, List.mem_singleton.mpr rfl, each node member⟩
  have child : ∀ {node kind child}, tree.arena.Reachable root node →
      tree.arena.kind? node = some kind → child ∈ kind.children →
      child ∈ tree.arena.children node ∧ tree.arena.Reachable root child := by
    intro node kind child reach found member
    rw [← Arena.children_of_kind found] at member
    exact ⟨member, reach.tail member⟩
  induction proceeds generalizing budget with
  | nil => exact repeats_pure _
  | @step loops names node rest middle last said more here after ih =>
      rw [List.forall_mem_cons] at above shallow
      rw [List.append_subset] at within
      have own := reached (List.forall_mem_singleton.mpr above.1)
      have later := (here.carries own within.1 bound).1
      refine repeats_mapM_cons ?_ (ih within.2 later above.2 shallow.2)
      cases budget with
      | zero => exact absurd shallow.1.1 (Nat.lt_irrefl _)
      | succ budget =>
          exact here.repeats engrafted above.1 own within.1 bound fun id name path =>
            typed id name (above.1.trans path)
  | @body loops names node statements rest inner last said more found inside after ihInside ih =>
      rw [List.forall_mem_cons] at above shallow
      rw [List.append_subset] at within
      have old := old_of_nested engrafted above.1 found rfl
      have reach : ∀ other ∈ (NodeKind.body statements).children,
          tree.arena.Reachable root other := fun other member => (child above.1 found member).2
      have later := (inside.carries (reached reach) within.1 bound.push).1
      refine repeats_mapM_cons ?_ (ih within.2 later.pop above.2 shallow.2)
      cases budget with
      | zero => exact absurd shallow.1.1 (Nat.lt_irrefl _)
      | succ budget =>
          apply (repeats_kind node).before
          rw [found]
          refine Repeats.behind (repeats_body found (ihInside within.1 bound.push reach
            fun other member => ?_)) (repeats_pure _)
          exact shallow.1.below engrafted above.1 old (child above.1 found member).1
  | @condition loops names node predicate thenBody elseBody rest first second last asked said other
      more found decided bool blocks thenPart elsePart after ihThen ihElse ih =>
      rw [List.forall_mem_cons] at above shallow
      rw [List.append_subset, List.append_subset, List.append_subset] at within
      rcases within with ⟨⟨⟨inAsked, inThen⟩, inElse⟩, inRest⟩
      have old := old_of_nested engrafted above.1 found rfl
      have reach : ∀ block ∈ thenBody :: elseBody.toList, tree.arena.Reachable root block ∧
          block ∈ tree.arena.children node := fun block member =>
        (child above.1 found (List.mem_cons_of_mem _ member)).symm
      rw [List.forall_mem_cons] at reach blocks
      have afterThen := (thenPart.carries (reached (List.forall_mem_singleton.mpr reach.1.1)) inThen
        bound).1
      have afterElse := (elsePart.carries (reached fun block member => (reach.2 block member).1) inElse
        afterThen).1
      refine repeats_mapM_cons ?_ (ih inRest afterElse above.2 shallow.2)
      cases budget with
      | zero => exact absurd shallow.1.1 (Nat.lt_irrefl _)
      | succ budget =>
          have below : ∀ block ∈ tree.arena.children node, Shallow origin (budget + 1) block :=
            fun block member => (shallow.1.below engrafted above.1 old member).more
          have thenBlock := ihThen inThen bound (List.forall_mem_singleton.mpr reach.1.1)
            (List.forall_mem_singleton.mpr (below thenBody reach.1.2))
          have elseBlock := ihElse inElse afterThen (fun block member => (reach.2 block member).1)
            fun block member => below block (reach.2 block member).2
          rcases blocks.1 with ⟨statements, held⟩
          refine repeats_condition found (decided.repeats_asked engrafted above.1 found
            (by simp [NodeKind.slots]) bool) (thenBlock.body_of_statement held) ?_
          cases elseBody with
          | none =>
              cases elsePart
              exact repeats_pure _
          | some block =>
              rcases blocks.2 block (by simp) with ⟨statements, held⟩
              exact elseBlock.body_of_statement held
  | @loop loops names node predicate block statements rest inner last asked said more found decided
      bool held inside after ihInside ih =>
      rw [List.forall_mem_cons] at above shallow
      rw [List.append_subset, List.append_subset] at within
      rcases within with ⟨⟨inAsked, inBody⟩, inRest⟩
      have old := old_of_nested engrafted above.1 found rfl
      have reach := child above.1 found (show block ∈ _ by simp [NodeKind.children])
      have later := (inside.carries (reached (List.forall_mem_singleton.mpr reach.2)) inBody bound).1
      refine repeats_mapM_cons ?_ (ih inRest later above.2 shallow.2)
      cases budget with
      | zero => exact absurd shallow.1.1 (Nat.lt_irrefl _)
      | succ budget =>
          have looped := ihInside inBody bound (List.forall_mem_singleton.mpr reach.2)
            (List.forall_mem_singleton.mpr (shallow.1.below engrafted above.1 old reach.1).more)
          exact repeats_loop found (decided.repeats_asked engrafted above.1 found
            (by simp [NodeKind.slots]) bool) (looped.body_of_statement held)

end Bodies

end ModuleLang.Inference
