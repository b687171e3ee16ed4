import ModuleLang.Proofs.Typing.Acceptance
import ModuleLang.Proofs.Validation.Paths

/-!
Acceptance of statements. A statement is accepted as an expression is: inference
would neither report an error for it nor rewrite it. The visible names are handed on
from one statement to the next, a body opens a frame for its own, and a definition
adds one that was not visible and not declared in a nested body.
-/

namespace ModuleLang

namespace NodeKind

variable {slot : Type}

/-- Whether a node is an expression that may stand as a statement. -/
def isEvaluated : NodeKind slot → Bool
  | call .. | construct .. | unary .. => true
  | _ => false

/-- Whether inference gives nodes of a kind a type below a body. -/
def isTyped (kind : NodeKind slot) : Bool :=
  kind.isExpression || match kind with | definition .. => true | _ => false

end NodeKind

/-- A node declares a name and has the type that is known of it. -/
def Arena.Binds (arena : Arena) (name : String) (binding : Binding) : Prop :=
  ((∃ written, arena.kind? binding.node = some (.parameter written name)) ∨
    ∃ written, arena.kind? binding.node = some (.definition written name)) ∧
  arena.type? binding.node = binding.type

namespace Inference

/-- All visible names are declared by nodes of which something is true. -/
def Bound (arena : Arena) (holds : NodeId → Prop) (names : Scopes) : Prop :=
  ∀ frame ∈ names.top :: names.outer, ∀ entry ∈ frame.visible,
    arena.Binds entry.1 entry.2 ∧ holds entry.2.node

namespace Bound

variable {arena : Arena} {holds : NodeId → Prop} {names : Scopes}

theorem lookup {name : String} {binding : Binding} (bound : Bound arena holds names)
    (seen : names.lookup name = some binding) :
    arena.Binds name binding ∧ holds binding.node := by
  rcases List.lookup_eq_some_iff.mp seen with ⟨before, after, same, -⟩
  exact bound names.top List.mem_cons_self (name, binding) (by rw [same]; simp)

theorem declare {name : String} {binding : Binding} (bound : Bound arena holds names)
    (binds : arena.Binds name binding) (own : holds binding.node) :
    Bound arena holds (names.declare name binding) := by
  intro frame member entry inside
  rcases List.mem_cons.mp member with rfl | member
  · rcases List.mem_cons.mp inside with rfl | inside
    · exact ⟨binds, own⟩
    · exact bound names.top List.mem_cons_self entry inside
  · exact bound frame (List.mem_cons_of_mem _ member) entry inside

theorem push (bound : Bound arena holds names) : Bound arena holds names.push := by
  intro frame member entry inside
  rcases List.mem_cons.mp member with rfl | member
  · exact bound names.top List.mem_cons_self entry inside
  · exact bound frame member entry inside

theorem pop (bound : Bound arena holds names) : Bound arena holds names.pop := by
  rcases names with ⟨top, _ | ⟨parent, outer⟩⟩
  · exact bound
  · intro frame member entry inside
    rcases List.mem_cons.mp member with rfl | member
    · exact bound parent (by simp) entry inside
    · exact bound frame (by simp [show frame ∈ outer from member]) entry inside

end Bound

section Judgements

variable (environment : Environment) (result : Option Ty) (tree : SourceTree)

/-- A statement that holds no others is accepted among some names and loops, with the
names that are visible behind it and what is reported about it. -/
inductive Complies (loops : Nat) (names : Scopes) (node : NodeId) :
    Scopes → List Diagnostic → Prop
  | evaluate {kind reports} (found : tree.arena.kind? node = some kind)
      (alone : kind.isEvaluated = true)
      (parts : Accepted environment names tree [node] reports) :
      Complies loops names node names reports
  | returns {value reports} (found : tree.arena.kind? node = some (.returnFrom value))
      (parts : Accepted environment names tree value.toList reports)
      (rule : (NodeKind.returnFrom value).Obeys tree.arena.type? none (· = result)) :
      Complies loops names node names reports
  | jump (isJump : tree.arena.IsJump node) (inside : loops ≠ 0) :
      Complies loops names node names []
  | assign {operator target value kind reports}
      (found : tree.arena.kind? node = some (.assign operator target value))
      (parts : Accepted environment names tree [value, target] reports)
      (solid : tree.arena.type? value ≠ some .void)
      (rule : (NodeKind.assign operator target value).Obeys tree.arena.type? none (· = result))
      (there : tree.arena.kind? target = some kind) (place : kind.isPlace = true) :
      Complies loops names node names reports
  | define {target value written name reports}
      (found : tree.arena.kind? node = some (.assign .assign target value))
      (parts : Accepted environment names tree [value, target] reports)
      (solid : tree.arena.type? value ≠ some .void)
      (rule : (NodeKind.assign .assign target value).Obeys tree.arena.type? none (· = result))
      (defines : tree.arena.kind? target = some (.definition (some written) name))
      (unseen : names.lookup name = none) (free : names.nested name = none) :
      Complies loops names node (names.declare name ⟨tree.arena.type? target, target, .inner⟩)
        reports
  /-- A variable without a written type gets the type of its first value. -/
  | introduce {target value written name type reports}
      (found : tree.arena.kind? node = some (.assign .assign target value))
      (parts : Accepted environment names tree [value] reports)
      (held : tree.arena.type? value = some type) (empty : type ≠ .null) (solid : type ≠ .void)
      (defines : tree.arena.kind? target = some (.definition (some written) name))
      (typed : tree.arena.type? target = some type) (spells : tree.arena.Spells type written)
      (unseen : names.lookup name = none) (free : names.nested name = none) :
      Complies loops names node (names.declare name ⟨some type, target, .inner⟩) reports
  /-- Nothing tells the type of a variable whose first value is `null`. -/
  | guess {target value name reports}
      (found : tree.arena.kind? node = some (.assign .assign target value))
      (parts : Accepted environment names tree [value] reports)
      (empty : IfKnown (tree.arena.type? value) (· = .null))
      (defines : tree.arena.kind? target = some (.definition none name))
      (untyped : tree.arena.type? target = none) :
      Complies loops names node (names.declare name ⟨none, target, .inner⟩) reports

/-- Statements are accepted one after the other. -/
inductive Proceeds : (loops : Nat) → Scopes → List NodeId → Scopes → List Diagnostic → Prop
  | nil {loops names} : Proceeds loops names [] names []
  | step {loops names node rest middle last said more}
      (here : Complies environment result tree loops names node middle said)
      (after : Proceeds loops middle rest last more) :
      Proceeds loops names (node :: rest) last (said ++ more)
  | body {loops names node statements rest inner last said more}
      (found : tree.arena.kind? node = some (.body statements))
      (inside : Proceeds loops names.push statements inner said)
      (after : Proceeds loops inner.pop rest last more) :
      Proceeds loops names (node :: rest) last (said ++ more)
  | condition {loops names node predicate thenBody elseBody rest first second last asked said other
      more}
      (found : tree.arena.kind? node = some (.condition predicate thenBody elseBody))
      (decided : Accepted environment names tree [predicate] asked)
      (bool : IfKnown (tree.arena.type? predicate) (· = .bool))
      (blocks : ∀ block ∈ thenBody :: elseBody.toList, ∃ statements,
        tree.arena.kind? block = some (.body statements))
      (thenPart : Proceeds loops names [thenBody] first said)
      (elsePart : Proceeds loops first elseBody.toList second other)
      (after : Proceeds loops second rest last more) :
      Proceeds loops names (node :: rest) last (asked ++ said ++ other ++ more)
  | loop {loops names node predicate block statements rest inner last asked said more}
      (found : tree.arena.kind? node = some (.loop predicate block))
      (decided : Accepted environment names tree [predicate] asked)
      (bool : IfKnown (tree.arena.type? predicate) (· = .bool))
      (held : tree.arena.kind? block = some (.body statements))
      (inside : Proceeds (loops + 1) names [block] inner said)
      (after : Proceeds loops inner rest last more) :
      Proceeds loops names (node :: rest) last (asked ++ said ++ more)

end Judgements

variable {environment : Environment} {result : Option Ty} {tree other : SourceTree} {loops : Nat}
  {names last : Scopes} {node : NodeId} {nodes : List NodeId} {reports : List Diagnostic}

section Frames

theorem Complies.frame (complies : Complies environment result tree loops names node last reports)
    (unchanged : Unchanged tree other [node]) :
    Complies environment result other loops names node last reports := by
  cases complies with
  | evaluate found alone parts =>
      exact .evaluate (unchanged.kind.trans found) alone (parts.frame unchanged)
  | @returns value _ found parts rule =>
      have below := unchanged.below found (List.Subset.refl value.toList)
      exact .returns (unchanged.kind.trans found) (parts.frame below)
        (NodeKind.obeys_of_same_types below.type rule)
  | jump isJump inside =>
      refine .jump ?_ inside
      unfold Arena.IsJump
      rw [unchanged.kind]
      exact isJump
  | @assign operator target value kind _ found parts solid rule there place =>
      have below := unchanged.below found (List.Subset.refl [target, value])
      refine .assign (unchanged.kind.trans found) (parts.frame (below.part (by simp))) ?_
        (NodeKind.obeys_of_same_types below.type rule) (below.kind.trans there) place
      rw [below.type value (by simp)]
      exact solid
  | @define target value written name _ found parts solid rule defines unseen free =>
      have below := unchanged.below found (List.Subset.refl [target, value])
      have same := below.type target (by simp)
      rw [← same]
      refine .define (unchanged.kind.trans found) (parts.frame (below.part (by simp))) ?_
        (NodeKind.obeys_of_same_types below.type rule) (below.kind.trans defines) unseen free
      rw [below.type value (by simp)]
      exact solid
  | @introduce target value written name type _ found parts held empty solid defines typed spells
      unseen free =>
      have below := unchanged.below found (List.Subset.refl [target, value])
      have own : Unchanged tree other [target] := below.part (by simp)
      have inner := own.below defines (List.Subset.refl [written])
      exact .introduce (unchanged.kind.trans found) (parts.frame (below.part (by simp)))
        ((below.type value (by simp)).trans held) empty solid (below.kind.trans defines)
        ((below.type target (by simp)).trans typed)
        ⟨inner.kind.trans spells.1, (inner.type written (by simp)).trans spells.2⟩ unseen free
  | @guess target value name _ found parts empty defines untyped =>
      have below := unchanged.below found (List.Subset.refl [target, value])
      refine .guess (unchanged.kind.trans found) (parts.frame (below.part (by simp))) ?_
        (below.kind.trans defines) ((below.type target (by simp)).trans untyped)
      rw [below.type value (by simp)]
      exact empty

/-- Statements stay accepted while the nodes from them on stay what they are. -/
theorem Proceeds.frame (proceeds : Proceeds environment result tree loops names nodes last reports)
    (unchanged : Unchanged tree other nodes) :
    Proceeds environment result other loops names nodes last reports := by
  induction proceeds with
  | nil => exact .nil
  | step here after ih =>
      exact .step (here.frame (unchanged.part (by simp))) (ih (unchanged.part (by simp)))
  | body found inside after ihInside ih =>
      exact .body (unchanged.kind.trans found)
        (ihInside (unchanged.below found (List.Subset.refl _))) (ih (unchanged.part (by simp)))
  | @condition loops names node predicate thenBody elseBody _ _ _ _ _ _ _ _ found decided bool
      blocks thenPart elsePart after ihThen ihElse ih =>
      have below := unchanged.below found
        (List.Subset.refl (predicate :: thenBody :: elseBody.toList))
      refine .condition (unchanged.kind.trans found) (decided.frame (below.part (by simp))) ?_ ?_
        (ihThen (below.part (by simp))) (ihElse (below.part (by simp)))
        (ih (unchanged.part (by simp)))
      · rw [below.type predicate (by simp)]
        exact bool
      · intro block member
        rcases blocks block member with ⟨statements, held⟩
        have own : Unchanged tree other [block] :=
          below.part (by simpa using List.mem_cons_of_mem predicate member)
        exact ⟨statements, own.kind.trans held⟩
  | @loop loops names node predicate block _ _ _ _ _ _ _ found decided bool held inside after
      ihInside ih =>
      have below := unchanged.below found (List.Subset.refl [predicate, block])
      have own : Unchanged tree other [block] := below.part (by simp)
      refine .loop (unchanged.kind.trans found) (decided.frame (below.part (by simp))) ?_
        (own.kind.trans held) (ihInside own) (ih (unchanged.part (by simp)))
      rw [below.type predicate (by simp)]
      exact bool

end Frames

theorem Proceeds.append {first second : List NodeId} {middle : Scopes} {more : List Diagnostic}
    (left : Proceeds environment result tree loops names first middle reports)
    (right : Proceeds environment result tree loops middle second last more) :
    Proceeds environment result tree loops names (first ++ second) last (reports ++ more) := by
  induction left with
  | nil => exact right
  | step here after ih =>
      rw [List.append_assoc _ _ more]
      exact .step here (ih right)
  | body found inside after _ ih =>
      rw [List.append_assoc _ _ more]
      exact .body found inside (ih right)
  | condition found decided bool blocks thenPart elsePart after _ _ ih =>
      rw [List.append_assoc _ _ more]
      exact .condition found decided bool blocks thenPart elsePart (ih right)
  | loop found decided bool held inside after _ ih =>
      rw [List.append_assoc _ _ more]
      exact .loop found decided bool held inside (ih right)

section Carrying

variable {holds : NodeId → Prop} {all : List Diagnostic}

/-- The rules hand something on from the visible names and the children of a node to the
node; `all` are the reports that may have been made. A variable has it from the value
that introduces it. -/
structure Hands (environment : Environment) (tree : SourceTree) (holds : NodeId → Prop)
    (all : List Diagnostic) (nodes : List NodeId) : Prop where
  rule : ∀ {first names id kind inner added}, first ∈ nodes → tree.arena.Reachable first id →
    Bound tree.arena holds names →
    Accepted.Entry environment names tree id kind inner added → inner ++ added ⊆ all →
    (∀ child ∈ kind.children, holds child) → holds id
  introduce : ∀ {target value type}, tree.arena.type? value = some type →
    tree.arena.type? target = some type → holds value → holds target
  guess : ∀ {first node target value name}, first ∈ nodes → tree.arena.Reachable first node →
    tree.arena.kind? node = some (.assign .assign target value) →
    tree.arena.kind? target = some (.definition none name) → tree.arena.type? target = none →
    holds value → IfKnown (tree.arena.type? value) (· = .null) → holds target

namespace Hands

variable {held : NodeKind NodeId} {rest some : List NodeId}

theorem reached (hands : Hands environment tree holds all nodes)
    (each : ∀ node ∈ some, ∃ first ∈ nodes, tree.arena.Reachable first node) :
    Hands environment tree holds all some where
  rule member path := by
    rcases each _ member with ⟨first, inside, above⟩
    exact hands.rule inside (above.trans path)
  introduce := hands.introduce
  guess member path := by
    rcases each _ member with ⟨first, inside, above⟩
    exact hands.guess inside (above.trans path)

theorem part (hands : Hands environment tree holds all nodes) (subset : some ⊆ nodes) :
    Hands environment tree holds all some :=
  hands.reached fun node member => ⟨node, subset member, .refl⟩

theorem below (hands : Hands environment tree holds all (node :: rest))
    (found : tree.arena.kind? node = .some held) (subset : some ⊆ held.children) :
    Hands environment tree holds all some := by
  refine hands.reached fun child member => ⟨node, List.mem_cons_self, .of_child ?_⟩
  exact Arena.child_of_kind found (subset member)

theorem carried (hands : Hands environment tree holds all nodes) (bound : Bound tree.arena holds names)
    (accepted : Accepted environment names tree nodes reports) (within : reports ⊆ all) :
    ∀ node ∈ nodes, holds node :=
  accepted.carries (fun member path entry => hands.rule member path bound entry) within

end Hands

/-- A node was accepted among names of which something is true, or it defines a variable
of which it is true. -/
def Accounted (environment : Environment) (tree : SourceTree) (holds : NodeId → Prop)
    (reports : List Diagnostic) (id : NodeId) (kind : NodeKind NodeId) : Prop :=
  (∃ names inner added, Bound tree.arena holds names ∧
    Accepted.Entry environment names tree id kind inner added ∧ inner ++ added ⊆ reports) ∨
  (holds id ∧ ∃ written name, kind = .definition written name ∧
    (written = none → tree.arena.type? id = none))

/-- All nodes with types below some nodes are accounted for. -/
def Accounts (environment : Environment) (tree : SourceTree) (holds : NodeId → Prop)
    (reports : List Diagnostic) (nodes : List NodeId) : Prop :=
  ∀ node ∈ nodes, ∀ id kind, tree.arena.Reachable node id → tree.arena.kind? id = some kind →
    kind.isTyped = true → Accounted environment tree holds reports id kind

namespace Accounts

variable {rest first second : List NodeId} {more : List Diagnostic}

theorem weaken (accounts : Accounts environment tree holds reports nodes)
    (subset : reports ⊆ more) : Accounts environment tree holds more nodes := by
  intro node member id kind path found typed
  apply (accounts node member id kind path found typed).imp_left
  rintro ⟨names, inner, added, bound, entry, inside⟩
  exact ⟨names, inner, added, bound, entry, List.Subset.trans inside subset⟩

theorem of_accepted (bound : Bound tree.arena holds names)
    (accepted : Accepted environment names tree nodes reports) :
    Accounts environment tree holds reports nodes := by
  intro node member id kind path found typed
  rcases accepted.within member path with ⟨other, inner, added, entry, subset⟩
  cases found.symm.trans entry.found
  exact Or.inl ⟨names, inner, added, bound, entry, subset⟩

theorem append (left : Accounts environment tree holds reports first)
    (right : Accounts environment tree holds more second) :
    Accounts environment tree holds (reports ++ more) (first ++ second) := by
  intro node member
  rcases List.mem_append.mp member with member | member
  · exact left.weaken (List.subset_append_left _ _) node member
  · exact right.weaken (List.subset_append_right _ _) node member

/-- A node without a type of its own is accounted for with its children. -/
theorem of_children {kind : NodeKind NodeId} (found : tree.arena.kind? node = some kind)
    (untyped : kind.isTyped = false) {parts : List NodeId} (children : kind.children ⊆ parts)
    (accounts : Accounts environment tree holds reports parts) :
    Accounts environment tree holds reports [node] := by
  intro other member id inner path known typed
  rw [List.mem_singleton.mp member] at path
  rcases Arena.reachable_cases path with rfl | ⟨child, slot, path⟩
  · cases found.symm.trans known
    rw [untyped] at typed
    cases typed
  · rw [Arena.children_of_kind found] at slot
    exact accounts child (children slot) id inner path known typed

end Accounts

/-- What the rules hand on is true of the names behind a statement. -/
theorem Complies.carries
    (complies : Complies environment result tree loops names node last reports)
    (hands : Hands environment tree holds all [node]) (within : reports ⊆ all)
    (bound : Bound tree.arena holds names) :
    Bound tree.arena holds last ∧ Accounts environment tree holds reports [node] := by
  have accounts : ∀ {some said}, Accepted environment names tree some said →
      Accounts environment tree holds said some := fun parts => .of_accepted bound parts
  -- A definition that was made by inference holds nothing but the type that it spells.
  have defined : ∀ {target : NodeId} {written : Option NodeId} {name : String},
      tree.arena.kind? target = some (.definition written name) →
      (∀ spelled ∈ written, ∃ type, tree.arena.Spells type spelled) →
      (written = none → tree.arena.type? target = none) →
      holds target → Accounts environment tree holds [] [target] := by
    intro target written name defines spells guessed own other member id kind path known typed
    rw [List.mem_singleton.mp member] at path
    rcases Arena.reachable_cases path with rfl | ⟨spelled, slot, path⟩
    · cases defines.symm.trans known
      exact Or.inr ⟨own, written, name, rfl, guessed⟩
    · rw [Arena.children_of_kind defines] at slot
      rcases spells spelled (Option.mem_toList.mp slot) with ⟨type, spells⟩
      rcases Arena.reachable_cases path with rfl | ⟨child, slot, -⟩
      · cases spells.1.symm.trans known
        cases typed
      · rw [Arena.children_of_kind spells.1] at slot
        cases slot
  cases complies with
  | evaluate found alone parts => exact ⟨bound, accounts parts⟩
  | returns found parts => exact ⟨bound, (accounts parts).of_children found rfl (List.Subset.refl _)⟩
  | jump isJump =>
      refine ⟨bound, ?_⟩
      rcases isJump with found | found
      all_goals exact (accounts .nil).of_children found rfl (List.Subset.refl _)
  | @assign operator target value _ _ found parts =>
      exact ⟨bound, (accounts parts).of_children found rfl (by simp [NodeKind.children])⟩
  | @define target value written name _ found parts solid rule defines unseen free =>
      have own := (hands.below found (by simp [NodeKind.children])).carried bound parts within target
        (by simp)
      exact ⟨bound.declare ⟨Or.inr ⟨_, defines⟩, rfl⟩ own,
        (accounts parts).of_children found rfl (by simp [NodeKind.children])⟩
  | @introduce target value written name type _ found parts held empty solid defines typed spells =>
      have own := (hands.below found (by simp [NodeKind.children])).carried bound parts within value
        (by simp)
      have introduced := hands.introduce held typed own
      refine ⟨bound.declare ⟨Or.inr ⟨_, defines⟩, typed⟩ introduced,
        ((defined defines ?_ (by simp) introduced).append (accounts parts)).of_children found rfl
          (List.Subset.refl _)⟩
      rintro spelled ⟨⟩
      exact ⟨type, spells⟩
  | @guess target value name _ found parts empty defines untyped =>
      have own := (hands.below found (by simp [NodeKind.children])).carried bound parts within value
        (by simp)
      have guessed := hands.guess List.mem_cons_self .refl found defines untyped own empty
      exact ⟨bound.declare ⟨Or.inr ⟨_, defines⟩, untyped⟩ guessed,
        ((defined defines (by simp) (fun _ => untyped) guessed).append (accounts parts)).of_children found
          rfl (List.Subset.refl _)⟩

/-- What the rules hand on is true of all names that become visible. -/
theorem Proceeds.carries
    (proceeds : Proceeds environment result tree loops names nodes last reports)
    (hands : Hands environment tree holds all nodes) (within : reports ⊆ all)
    (bound : Bound tree.arena holds names) :
    Bound tree.arena holds last ∧ Accounts environment tree holds reports nodes := by
  -- One statement is accounted for, and those behind it.
  have join : ∀ {node : NodeId} {rest : List NodeId} {said more : List Diagnostic},
      Accounts environment tree holds said [node] → Accounts environment tree holds more rest →
      Accounts environment tree holds (said ++ more) (node :: rest) :=
    fun first second => first.append second
  induction proceeds with
  | nil => exact ⟨bound, fun _ member => by cases member⟩
  | step here after ih =>
      rcases here.carries (hands.part (by simp)) (List.append_subset.mp within).1 bound
        with ⟨bound, own⟩
      rcases ih (hands.part (by simp)) (List.append_subset.mp within).2 bound with
        ⟨bound, rest⟩
      exact ⟨bound, join own rest⟩
  | body found inside after ihInside ih =>
      rcases ihInside (hands.below found (List.Subset.refl _))
        (List.append_subset.mp within).1 bound.push with ⟨bound, own⟩
      rcases ih (hands.part (by simp)) (List.append_subset.mp within).2 bound.pop with
        ⟨bound, rest⟩
      exact ⟨bound, join (own.of_children found rfl (List.Subset.refl _)) rest⟩
  | @condition loops names node predicate thenBody elseBody _ _ _ _ asked said other more found
      decided bool blocks thenPart elsePart after ihThen ihElse ih =>
      have below := hands.below found
        (List.Subset.refl (predicate :: thenBody :: elseBody.toList))
      have parts : asked ++ said ++ other ⊆ all := (List.append_subset.mp within).1
      have early : asked ++ said ⊆ all := (List.append_subset.mp parts).1
      have first := Accounts.of_accepted bound decided
      rcases ihThen (below.part (by simp)) (List.append_subset.mp early).2 bound with
        ⟨bound, second⟩
      rcases ihElse (below.part (by simp)) (List.append_subset.mp parts).2 bound with
        ⟨bound, third⟩
      rcases ih (hands.part (by simp)) (List.append_subset.mp within).2 bound with
        ⟨bound, rest⟩
      have whole := (first.append second).append third
      exact ⟨bound, join (whole.of_children found rfl (List.Subset.refl _)) rest⟩
  | @loop loops names node predicate block _ _ _ _ asked said more found decided bool held inside
      after ihInside ih =>
      have below := hands.below found (List.Subset.refl [predicate, block])
      have parts : asked ++ said ⊆ all := (List.append_subset.mp within).1
      have first := Accounts.of_accepted bound decided
      rcases ihInside (below.part (by simp)) (List.append_subset.mp parts).2 bound with
        ⟨bound, second⟩
      rcases ih (hands.part (by simp)) (List.append_subset.mp within).2 bound with
        ⟨bound, rest⟩
      exact ⟨bound, join ((first.append second).of_children found rfl (List.Subset.refl _)) rest⟩

end Carrying

end Inference

end ModuleLang
