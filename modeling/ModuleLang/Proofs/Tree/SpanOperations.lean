import ModuleLang.Proofs.Tree.Construction

/-!
Operations on a span table that fail. Recording a span and copying one look before
they write, so that a failure leaves the table as it was. Moving a span forgets the
old node first: where the new node then turns out to have a span, the old one has
lost its own. That is the only failure after which the table differs.
-/

namespace ModuleLang

/-- What can be asked of a span table. -/
inductive SpanOperation
  | addBetween (node : NodeId) (start stop : Position)
  | move (old new : NodeId)
  | copy (source target : NodeId)
deriving DecidableEq

namespace SpanOperation

def action : SpanOperation → SpanTable.Action Unit
  | addBetween node start stop => SpanTable.addBetween node start stop
  | move old new => SpanTable.move old new
  | copy source target => SpanTable.copy source target

/-- The operation moves a span to another node that has one already. -/
def Collides (table : SpanTable) : SpanOperation → Prop
  | move old new => old ≠ new ∧ table.contains old = true ∧ table.contains new = true
  | _ => False

end SpanOperation

namespace SpanTable

/-- The table that an operation leaves behind, whether it succeeds or fails. -/
def after (table : SpanTable) (operation : SpanOperation) : SpanTable :=
  match operation.action.run table with
  | .ok _ final => final
  | .error _ final => final

/-- The table that operations on an empty one lead to. -/
def ofOperations (operations : List SpanOperation) : SpanTable :=
  operations.foldl after .empty

/-- Two tables hold the same nodes with the same spans. -/
structure Agrees (first second : SpanTable) : Prop where
  size : first.size = second.size
  contains : ∀ node, first.contains node = second.contains node
  span : ∀ node, first.span? node = second.span? node

theorem Agrees.refl (table : SpanTable) : table.Agrees table :=
  ⟨rfl, fun _ => rfl, fun _ => rfl⟩

/-- All that is gone from a table is the span of one node. -/
structure Lacks (node : NodeId) (first second : SpanTable) : Prop where
  had : first.contains node = true
  size : second.size + 1 = first.size
  contains : ∀ other, second.contains other = (decide (other ≠ node) && first.contains other)
  span : ∀ other, second.span? other = if other = node then none else first.span? other

theorem Lacks.not_agrees {node : NodeId} {first second : SpanTable}
    (lacks : Lacks node first second) : ¬ second.Agrees first := by
  intro agrees
  have same := agrees.size
  have fewer := lacks.size
  omega

theorem lacks_erase {table : SpanTable} {node : NodeId} (had : table.contains node = true) :
    Lacks node table (table.erase node) := by
  have spans : ∀ other, (table.erase node).span? other =
      if other = node then none else table.span? other := by
    intro other
    rw [span_erase]
    by_cases same : node = other
    · rw [if_pos same, if_pos same.symm]
    · rw [if_neg same, if_neg fun equal => same equal.symm]
  refine ⟨had, ?_, ?_, spans⟩
  · have positive : table.entries.size ≠ 0 := by
      intro empty
      rw [← beq_iff_eq, ← Std.TreeMap.isEmpty_eq_size_eq_zero] at empty
      have none := Std.TreeMap.contains_of_isEmpty (a := node.index) empty
      exact absurd (had.symm.trans none) (by simp)
    unfold size erase
    rw [Std.TreeMap.size_erase, if_pos (show table.entries.contains node.index = true from had)]
    omega
  · intro other
    rw [contains_iff, contains_iff, spans]
    by_cases same : other = node <;> simp [same]

section Failures

variable {table final : SpanTable} {error : InternalError}

theorem add_failed {node : NodeId} {span : Span}
    (failed : (add node span).run table = .error error final) :
    final = table ∧ error = .duplicateSpan node ∧ table.contains node = true := by
  unfold add at failed
  rw [EStateM.run_bind] at failed
  change (if table.contains node then throw (.duplicateSpan node)
    else modify fun table => table.insert node span : Action Unit).run table = _ at failed
  split at failed
  · rename_i had
    cases failed
    exact ⟨rfl, rfl, had⟩
  · cases failed

theorem add_between_failed {node : NodeId} {start stop : Position}
    (failed : (addBetween node start stop).run table = .error error final) : final = table := by
  unfold addBetween at failed
  split at failed
  · exact (add_failed failed).1
  · cases failed
    rfl

variable {source target : NodeId} {span : Span}

theorem run_copy_none (absent : table.span? source = none) :
    (copy source target).run table = .error (.missingSpan source) table := by
  simp only [copy, EStateM.run_bind, EStateM.run_get, absent]
  rfl

theorem run_copy_some (present : table.span? source = some span) :
    (copy source target).run table = (add target span).run table := by
  simp only [copy, EStateM.run_bind, EStateM.run_get, present]

theorem run_move_none (absent : table.span? source = none) :
    (move source target).run table = .error (.missingSpan source) table := by
  simp only [move, EStateM.run_bind, EStateM.run_get, absent]
  rfl

theorem run_move_some (present : table.span? source = some span) :
    (move source target).run table = (add target span).run (table.erase source) := by
  simp only [move, EStateM.run_bind, EStateM.run_get, present]
  rfl

theorem copy_failed {source target : NodeId}
    (failed : (copy source target).run table = .error error final) : final = table := by
  cases present : table.span? source with
  | none =>
      rw [run_copy_none present] at failed
      cases failed
      rfl
  | some span =>
      rw [run_copy_some present] at failed
      exact (add_failed failed).1

/-- A span fails to move because there is none, or because the new node has one.
In the second case the old node is forgotten. -/
theorem move_failed {old new : NodeId} (failed : (move old new).run table = .error error final) :
    (table.contains old = false ∧ error = .missingSpan old ∧ final = table) ∨
      (old ≠ new ∧ table.contains old = true ∧ table.contains new = true ∧
        error = .duplicateSpan new ∧ final = table.erase old) := by
  cases present : table.span? old with
  | none =>
      rw [run_move_none present] at failed
      cases failed
      refine Or.inl ⟨?_, rfl, rfl⟩
      rw [contains_iff, present]
      rfl
  | some span =>
      have had : table.contains old = true := by
        rw [contains_iff, present]
        rfl
      rw [run_move_some present] at failed
      obtain ⟨same, reason, collides⟩ := add_failed failed
      rw [(lacks_erase had).contains, Bool.and_eq_true, decide_eq_true_iff] at collides
      exact Or.inr ⟨collides.1.symm, had, collides.2, reason, same⟩

end Failures

/-- An operation that fails leaves the table as it was, unless it moves a span to
another node that has one; then the old node, and nothing else, is forgotten. -/
theorem failed_operation_keeps (operations : List SpanOperation) (operation : SpanOperation)
    {error : InternalError} {final : SpanTable}
    (failed : operation.action.run (ofOperations operations) = .error error final) :
    (¬ operation.Collides (ofOperations operations) → final.Agrees (ofOperations operations)) ∧
      (operation.Collides (ofOperations operations) → ∃ old new, operation = .move old new ∧
        error = .duplicateSpan new ∧ Lacks old (ofOperations operations) final) := by
  generalize ofOperations operations = table at failed ⊢
  cases operation with
  | addBetween node start stop =>
      rw [add_between_failed failed]
      exact ⟨fun _ => .refl _, False.elim⟩
  | copy source target =>
      rw [copy_failed failed]
      exact ⟨fun _ => .refl _, False.elim⟩
  | move old new =>
      obtain ⟨absent, -, rfl⟩ | ⟨apart, had, has, reason, rfl⟩ := move_failed failed
      · refine ⟨fun _ => .refl _, fun collides => ?_⟩
        exact absurd (absent.symm.trans collides.2.1) (by simp)
      · refine ⟨fun single => absurd ⟨apart, had, has⟩ single, fun _ => ?_⟩
        exact ⟨old, new, rfl, reason, lacks_erase had⟩

/-- Two nodes with spans. -/
def twoSpans : List SpanOperation :=
  [.addBetween ⟨0⟩ ⟨0, 0⟩ ⟨0, 3⟩, .addBetween ⟨1⟩ ⟨2, 0⟩ ⟨2, 5⟩]

/-- A span cannot be copied to a node that has one, and nothing changes; moving it
there fails too, and the span is lost. -/
theorem failed_operation_keeps_copied :
    (∃ error final, (SpanOperation.copy ⟨0⟩ ⟨1⟩).action.run (ofOperations twoSpans) =
      .error error final ∧ final.Agrees (ofOperations twoSpans)) ∧
    ∃ error final, (SpanOperation.move ⟨0⟩ ⟨1⟩).action.run (ofOperations twoSpans) =
      .error error final ∧ Lacks ⟨0⟩ (ofOperations twoSpans) final := by
  have copied : (SpanOperation.copy ⟨0⟩ ⟨1⟩).action.run (ofOperations twoSpans) =
      .error (.duplicateSpan ⟨1⟩) (ofOperations twoSpans) := rfl
  have moved : (SpanOperation.move ⟨0⟩ ⟨1⟩).action.run (ofOperations twoSpans) =
      .error (.duplicateSpan ⟨1⟩) ((ofOperations twoSpans).erase ⟨0⟩) := rfl
  have collides : (SpanOperation.move ⟨0⟩ ⟨1⟩).Collides (ofOperations twoSpans) :=
    ⟨by decide, by decide +kernel, by decide +kernel⟩
  refine ⟨⟨_, _, copied, (failed_operation_keeps twoSpans _ copied).1 id⟩, _, _, moved, ?_⟩
  obtain ⟨old, new, same, -, lacks⟩ := (failed_operation_keeps twoSpans _ moved).2 collides
  cases same
  exact lacks

/-- A failed move of a span forgets the node that it was to be moved from. -/
theorem failed_move_forgets :
    ¬ ∀ (operations : List SpanOperation) (operation : SpanOperation) (error : InternalError)
      (final : SpanTable),
      operation.action.run (ofOperations operations) = .error error final →
        final.Agrees (ofOperations operations) := by
  intro keeps
  have failed : (SpanOperation.move ⟨0⟩ ⟨1⟩).action.run (ofOperations twoSpans) =
      .error (.duplicateSpan ⟨1⟩) ((ofOperations twoSpans).erase ⟨0⟩) := by
    rfl
  have same := (keeps twoSpans _ _ _ failed).contains ⟨0⟩
  revert same
  decide +kernel

end SpanTable

end ModuleLang
