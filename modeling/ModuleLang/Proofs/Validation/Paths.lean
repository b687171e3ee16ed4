import ModuleLang.Proofs.Tree.Construction
import ModuleLang.Validation

/-!
Paths through statements. A path takes one branch of every condition that it
meets, or skips one without an `else`, and runs every loop any number of times; a
jump acts on the nearest loop around it. The check for returns looks at no path:
it is shown that a statement passes it only if no path reaches its end, and that
one that does not pass has such a path unless a jump stands outside a loop.
-/

namespace ModuleLang

/-- How a path through a statement ends. -/
inductive Outcome
  /-- Behind the statement. -/
  | finished
  | returned
  | broke
  | continued
deriving DecidableEq

namespace NodeKind

variable {slot : Type}

/-- Whether a statement decides where a path goes on. -/
def isControl : NodeKind slot → Bool
  | body _ | condition .. | loop .. | returnFrom _ | breakLoop | continueLoop => true
  | _ => false

end NodeKind

namespace Arena

/-- A path through a statement, and how it ends. -/
inductive Runs (arena : Arena) : NodeId → Outcome → Prop
  | body {node statements} (found : arena.kind? node = some (.body statements))
      (each : ∀ statement ∈ statements, Runs arena statement .finished) :
      Runs arena node .finished
  | left {node earlier statement later outcome}
      (found : arena.kind? node = some (.body (earlier ++ statement :: later)))
      (each : ∀ passed ∈ earlier, Runs arena passed .finished)
      (last : Runs arena statement outcome) (leaves : outcome ≠ .finished) :
      Runs arena node outcome
  | thenBody {node predicate thenBody elseBody outcome}
      (found : arena.kind? node = some (.condition predicate thenBody elseBody))
      (taken : Runs arena thenBody outcome) : Runs arena node outcome
  | elseBody {node predicate thenBody elseBody outcome}
      (found : arena.kind? node = some (.condition predicate thenBody (some elseBody)))
      (taken : Runs arena elseBody outcome) : Runs arena node outcome
  | skipped {node predicate thenBody}
      (found : arena.kind? node = some (.condition predicate thenBody none)) :
      Runs arena node .finished
  | loopEnds {node predicate block}
      (found : arena.kind? node = some (.loop predicate block)) : Runs arena node .finished
  | loopAgain {node predicate block once outcome}
      (found : arena.kind? node = some (.loop predicate block)) (first : Runs arena block once)
      (goes : once = .finished ∨ once = .continued) (rest : Runs arena node outcome) :
      Runs arena node outcome
  | loopBroken {node predicate block}
      (found : arena.kind? node = some (.loop predicate block)) (last : Runs arena block .broke) :
      Runs arena node .finished
  | loopReturned {node predicate block}
      (found : arena.kind? node = some (.loop predicate block))
      (last : Runs arena block .returned) : Runs arena node .returned
  | returned {node value} (found : arena.kind? node = some (.returnFrom value)) :
      Runs arena node .returned
  | broke {node} (found : arena.kind? node = some .breakLoop) : Runs arena node .broke
  | continued {node} (found : arena.kind? node = some .continueLoop) : Runs arena node .continued
  | plain {node kind} (found : arena.kind? node = some kind) (simple : kind.isControl = false) :
      Runs arena node .finished

/-- Whether a node is `break` or `continue`. -/
def IsJump (arena : Arena) (node : NodeId) : Prop :=
  arena.kind? node = some .breakLoop ∨ arena.kind? node = some .continueLoop

/-- A node is below another one without a loop in between. -/
def Unlooped (arena : Arena) : NodeId → NodeId → Prop :=
  Relation.ReflTransGen fun parent child => child ∈ arena.children parent ∧
    ∀ predicate block, arena.kind? parent ≠ some (.loop predicate block)

/-- `break` or `continue` stands in a node and in no loop in there. -/
def Strays (arena : Arena) (node : NodeId) : Prop :=
  ∃ jump, arena.Unlooped node jump ∧ arena.IsJump jump

/-- Whether some statement of a body returns. -/
def returnsWithin (arena : Arena) (depth : Nat) (body : NodeId) : Bool :=
  match arena.kind? body with
  | some (.body statements) => statements.any (arena.statementReturns depth)
  | _ => false

variable {arena : Arena}

theorem body_returns_eq (body : NodeId) :
    arena.bodyReturns body = arena.returnsWithin arena.size body := rfl

theorem returns_within_body {depth : Nat} {node : NodeId} {statements : List NodeId}
    (found : arena.kind? node = some (.body statements)) :
    arena.returnsWithin depth node = statements.any (arena.statementReturns depth) := by
  rw [returnsWithin, found]

theorem statement_returns_succ (depth : Nat) (node : NodeId) :
    arena.statementReturns (depth + 1) node =
      match arena.kind? node with
      | some (.returnFrom _) => true
      | some (.condition _ thenBody (some elseBody)) =>
          arena.returnsWithin depth thenBody && arena.returnsWithin depth elseBody
      | some (.body _) => arena.returnsWithin depth node
      | _ => false := by
  rw [statementReturns]
  rfl

section Finished

variable {node : NodeId}

/-- A path comes behind a body if it comes behind all of its statements. -/
theorem finished_body {statements : List NodeId}
    (found : arena.kind? node = some (.body statements)) :
    arena.Runs node .finished ↔ ∀ statement ∈ statements, arena.Runs statement .finished := by
  refine ⟨fun runs => ?_, .body found⟩
  cases runs with
  | body other each =>
      cases found.symm.trans other
      exact each
  | left _ _ _ leaves => exact absurd rfl leaves
  | plain other simple =>
      cases found.symm.trans other
      cases simple
  | _ other => cases found.symm.trans other

theorem finished_condition {predicate thenBody elseBody : NodeId}
    (found : arena.kind? node = some (.condition predicate thenBody (some elseBody))) :
    arena.Runs node .finished ↔
      arena.Runs thenBody .finished ∨ arena.Runs elseBody .finished := by
  constructor
  · intro runs
    cases runs with
    | thenBody other taken =>
        cases found.symm.trans other
        exact Or.inl taken
    | elseBody other taken =>
        cases found.symm.trans other
        exact Or.inr taken
    | left _ _ _ leaves => exact absurd rfl leaves
    | plain other simple =>
        cases found.symm.trans other
        cases simple
    | _ other => cases found.symm.trans other
  · rintro (taken | taken)
    · exact .thenBody found taken
    · exact .elseBody found taken

theorem not_finished_return {value : Option NodeId}
    (found : arena.kind? node = some (.returnFrom value)) : ¬ arena.Runs node .finished := by
  intro runs
  cases runs with
  | left _ _ _ leaves => exact leaves rfl
  | plain other simple =>
      cases found.symm.trans other
      cases simple
  | _ other => cases found.symm.trans other

end Finished

/-- What passes the check has no path to its end. -/
theorem not_finished_of_returns_within {depth : Nat} {body : NodeId}
    (statements : ∀ statement, arena.statementReturns depth statement = true →
      ¬ arena.Runs statement .finished)
    (returns : arena.returnsWithin depth body = true) : ¬ arena.Runs body .finished := by
  unfold returnsWithin at returns
  split at returns
  · rename_i inner found
    obtain ⟨statement, member, passes⟩ := List.any_eq_true.mp returns
    rw [finished_body found]
    exact fun each => statements statement passes (each statement member)
  · cases returns

theorem not_finished_of_returns {depth : Nat} {node : NodeId}
    (returns : arena.statementReturns depth node = true) : ¬ arena.Runs node .finished := by
  induction depth generalizing node with
  | zero => cases returns
  | succ depth ih =>
      have inner : ∀ {body}, arena.returnsWithin depth body = true → ¬ arena.Runs body .finished :=
        not_finished_of_returns_within fun _ => ih
      rw [statement_returns_succ] at returns
      split at returns
      · exact not_finished_return ‹_›
      · rw [finished_condition ‹_›, not_or]
        rw [Bool.and_eq_true] at returns
        exact ⟨inner returns.1, inner returns.2⟩
      · exact inner returns
      · cases returns

theorem not_finished_of_body_returns {body : NodeId} (returns : arena.bodyReturns body = true) :
    ¬ arena.Runs body .finished :=
  not_finished_of_returns_within (fun _ => not_finished_of_returns) returns

section Prolongs

/-- Nodes stay what they are, but for returns that bodies get behind their
statements. -/
def Prolongs (first second : Arena) : Prop :=
  ∀ id kind, first.kind? id = some kind → second.kind? id = some kind ∨
    ∃ statements more, kind = .body statements ∧
      second.kind? id = some (.body (statements ++ more)) ∧
      ∀ node ∈ more, second.kind? node = some (.returnFrom none)

variable {first second third : Arena}

theorem Prolongs.refl (arena : Arena) : arena.Prolongs arena := fun _ _ => Or.inl

theorem Prolongs.other {node : NodeId} {kind : NodeKind NodeId} (prolongs : first.Prolongs second)
    (found : first.kind? node = some kind) (solid : ∀ statements, kind ≠ .body statements) :
    second.kind? node = some kind := by
  obtain same | ⟨_, _, equal, -⟩ := prolongs node _ found
  · exact same
  · exact absurd equal (solid _)

theorem Prolongs.body {node : NodeId} {statements : List NodeId} (prolongs : first.Prolongs second)
    (found : first.kind? node = some (.body statements)) :
    ∃ more, second.kind? node = some (.body (statements ++ more)) ∧
      ∀ node ∈ more, second.kind? node = some (.returnFrom none) := by
  obtain same | ⟨_, more, equal, longer, returns⟩ := prolongs node _ found
  · exact ⟨[], by rw [same, List.append_nil], nofun⟩
  · cases equal
    exact ⟨more, longer, returns⟩

theorem Prolongs.trans (early : first.Prolongs second) (late : second.Prolongs third) :
    first.Prolongs third := by
  intro id kind found
  obtain same | ⟨statements, more, rfl, longer, returns⟩ := early id kind found
  · exact late id kind same
  · obtain ⟨again, longest, ends⟩ := late.body longer
    refine Or.inr ⟨statements, more ++ again, rfl, by rw [longest, List.append_assoc], ?_⟩
    intro node member
    obtain member | member := List.mem_append.mp member
    · exact late.other (returns node member) nofun
    · exact ends node member

theorem Prolongs.returns_within {depth deeper : Nat} {body : NodeId}
    (prolongs : first.Prolongs second)
    (each : ∀ {statement}, first.statementReturns depth statement = true →
      second.statementReturns deeper statement = true)
    (returns : first.returnsWithin depth body = true) :
    second.returnsWithin deeper body = true := by
  unfold returnsWithin at returns
  split at returns
  · rename_i statements found
    obtain ⟨more, longer, -⟩ := prolongs.body found
    obtain ⟨statement, member, passes⟩ := List.any_eq_true.mp returns
    rw [returns_within_body longer, List.any_eq_true]
    exact ⟨statement, List.mem_append_left _ member, each passes⟩
  · cases returns

/-- Further statements and a greater depth let nothing fail that passed. -/
theorem Prolongs.returns {depth deeper : Nat} {node : NodeId} (prolongs : first.Prolongs second)
    (le : depth ≤ deeper) (returns : first.statementReturns depth node = true) :
    second.statementReturns deeper node = true := by
  induction depth generalizing node deeper with
  | zero => cases returns
  | succ depth ih =>
      obtain ⟨deeper, rfl⟩ := Nat.exists_eq_add_one_of_ne_zero (show deeper ≠ 0 by omega)
      have inner : ∀ {body}, first.returnsWithin depth body = true →
          second.returnsWithin deeper body = true :=
        prolongs.returns_within (ih (Nat.le_of_succ_le_succ le))
      rw [statement_returns_succ] at returns ⊢
      split at returns
      · rename_i found
        rw [prolongs.other found nofun]
      · rename_i found
        rw [prolongs.other found nofun]
        rw [Bool.and_eq_true] at returns ⊢
        exact ⟨inner returns.1, inner returns.2⟩
      · rename_i found
        obtain ⟨more, longer, -⟩ := prolongs.body found
        rw [longer]
        exact inner returns
      · cases returns

theorem Prolongs.body_returns {body : NodeId} (prolongs : first.Prolongs second)
    (size : first.size ≤ second.size) (returns : first.bodyReturns body = true) :
    second.bodyReturns body = true :=
  prolongs.returns_within (prolongs.returns size) returns

theorem Prolongs.reachable {node id : NodeId} (prolongs : first.Prolongs second)
    (path : first.Reachable node id) : second.Reachable node id := by
  induction path with
  | refl => exact .refl
  | tail _ inside ih =>
      obtain ⟨kind, found, member⟩ := kind_of_child inside
      refine ih.tail ?_
      obtain same | ⟨statements, more, rfl, longer, -⟩ := prolongs _ kind found
      · exact child_of_kind same member
      · exact child_of_kind longer (List.mem_append_left _ member)

/-- What is left in a tree was there before, but for the returns that were put in. -/
theorem Prolongs.origin {node id : NodeId} {kind : NodeKind NodeId}
    (prolongs : first.Prolongs second)
    (whole : ∀ id, first.Reachable node id → ∃ kind, first.kind? id = some kind)
    (path : second.Reachable node id) (found : second.kind? id = some kind)
    (lasting : kind ≠ .returnFrom none) (solid : ∀ statements, kind ≠ .body statements) :
    first.Reachable node id ∧ first.kind? id = some kind := by
  have known : first.Reachable node id ∨ second.kind? id = some (.returnFrom none) := by
    clear found
    induction path with
    | refl => exact Or.inl .refl
    | @tail parent child _ inside ih =>
        obtain above | ends := ih
        · obtain ⟨held, was⟩ := whole parent above
          obtain same | ⟨statements, more, rfl, longer, returns⟩ := prolongs parent held was
          · rw [children_of_kind same] at inside
            refine Or.inl (above.tail ?_)
            exact child_of_kind was inside
          · rw [children_of_kind longer] at inside
            obtain old | new := List.mem_append.mp inside
            · refine Or.inl (above.tail ?_)
              exact child_of_kind was old
            · exact Or.inr (returns child new)
        · rw [children_of_kind ends] at inside
          cases inside
  obtain above | ends := known
  · obtain ⟨held, was⟩ := whole id above
    obtain same | ⟨statements, more, rfl, longer, -⟩ := prolongs id held was
    · cases found.symm.trans same
      exact ⟨above, was⟩
    · cases found.symm.trans longer
      exact absurd rfl (solid _)
  · cases found.symm.trans ends
    exact absurd rfl lasting

end Prolongs

section Strays

variable {node child : NodeId}

theorem strays_of_child (inside : child ∈ arena.children node)
    (solid : ∀ predicate block, arena.kind? node ≠ some (.loop predicate block))
    (strays : arena.Strays child) : arena.Strays node := by
  obtain ⟨jump, below, isJump⟩ := strays
  exact ⟨jump, Relation.ReflTransGen.head ⟨inside, solid⟩ below, isJump⟩

theorem strays_of_jump (jump : arena.IsJump node) : arena.Strays node := ⟨node, .refl, jump⟩

end Strays

section Constructed

variable {limit : Position} {tree : SourceTree} (constructed : tree.Constructed limit)

include constructed

/-- A body that does not pass the check has a path to its end, if all of its
statements that do not pass have one. -/
theorem finished_of_not_returns_within {depth : Nat} {body : NodeId} {statements : List NodeId}
    (each : ∀ {statement}, statement.index < depth → statement.index < tree.arena.size →
      tree.arena.statementReturns depth statement = false → ¬ tree.arena.Strays statement →
      tree.arena.Runs statement .finished)
    (found : tree.arena.kind? body = some (.body statements)) (within : body.index ≤ depth)
    (fails : tree.arena.returnsWithin depth body = false) (kept : ¬ tree.arena.Strays body) :
    tree.arena.Runs body .finished := by
  rw [returns_within_body found, List.any_eq_false] at fails
  refine .body found fun statement member => ?_
  have inside : statement ∈ tree.arena.children body := child_of_kind found member
  have older := constructed.forest.below inside
  have known := kind_bound found
  refine each (by omega) (by omega) (by simpa using fails statement member) fun strays => ?_
  exact kept (strays_of_child inside (by simp [found]) strays)

/-- Where no jump strays, what does not pass the check has a path to its end. The
depth exceeds the length of every way down. -/
theorem finished_of_not_returns {depth : Nat} {node : NodeId}
    (within : node.index < depth) (known : node.index < tree.arena.size)
    (fails : tree.arena.statementReturns depth node = false)
    (kept : ¬ tree.arena.Strays node) : tree.arena.Runs node .finished := by
  induction depth generalizing node with
  | zero => exact absurd within (Nat.not_lt_zero _)
  | succ depth ih =>
      obtain ⟨kind, found⟩ := kind_exists known
      have branch : ∀ {block : NodeId}, (Category.body, block) ∈ kind.slots →
          (∀ predicate block, kind ≠ .loop predicate block) →
          tree.arena.returnsWithin depth block = false → tree.arena.Runs block .finished := by
        intro block slot solid fails
        have inside : block ∈ tree.arena.children node :=
          child_of_kind found (NodeKind.slot_is_child slot)
        have older := constructed.forest.below inside
        obtain ⟨inner, blockFound, admits⟩ := constructed.admitted found _ slot
        cases inner with
        | body statements =>
            refine finished_of_not_returns_within constructed ih blockFound (by omega) fails ?_
            refine fun strays => kept (strays_of_child inside (fun predicate block => ?_) strays)
            rw [found]
            exact fun same => solid predicate block (Option.some.inj same)
        | _ => cases admits
      rw [statement_returns_succ, found] at fails
      cases kind with
      | returnFrom value => cases fails
      | breakLoop => exact absurd (strays_of_jump (Or.inl found)) kept
      | continueLoop => exact absurd (strays_of_jump (Or.inr found)) kept
      | loop predicate block => exact .loopEnds found
      | body statements =>
          exact finished_of_not_returns_within constructed ih found (by omega) fails kept
      | condition predicate thenBody elseBody =>
          cases elseBody with
          | none => exact .skipped found
          | some elseBody =>
              rw [finished_condition found]
              rw [Bool.and_eq_false_iff] at fails
              refine fails.imp (fun fails => ?_) fun fails => ?_
              · exact branch (by simp [NodeKind.slots]) (by simp) fails
              · exact branch (by simp [NodeKind.slots]) (by simp) fails
      | _ => exact .plain found rfl

/-- The check finds exactly the bodies without a path to their end. -/
theorem returns_within_iff {depth : Nat} {body : NodeId} (deep : tree.arena.size ≤ depth)
    (admitted : tree.arena.Admitted .body body) (kept : ¬ tree.arena.Strays body) :
    tree.arena.returnsWithin depth body = false ↔ tree.arena.Runs body .finished := by
  constructor
  · intro fails
    obtain ⟨kind, found, admits⟩ := admitted
    cases kind with
    | body statements =>
        have known := kind_bound found
        exact finished_of_not_returns_within constructed (finished_of_not_returns constructed)
          found (by omega) fails kept
    | _ => cases admits
  · intro runs
    rw [← Bool.not_eq_true]
    exact fun returns => not_finished_of_returns_within (fun _ => not_finished_of_returns) returns runs

end Constructed

end Arena

end ModuleLang
