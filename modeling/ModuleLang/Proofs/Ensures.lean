import ModuleLang.Proofs.Yields

/-!
What holds of an action if it succeeds. `Ensures action start holds` says nothing about a
run that fails, so that a bound on the recursion need not be known to be large enough. It
is combined with `Yields`, which says that there is a result.
-/

namespace ModuleLang

variable {error state value image : Type}

/-- Value and final state satisfy `holds` if the action succeeds. -/
structure Ensures (action : EStateM error state value) (start : state)
    (holds : value → state → Prop) : Prop where
  met : ∀ result final, action.run start = .ok result final → holds result final

theorem Ensures.weaken {action : EStateM error state value} {start : state}
    {holds weaker : value → state → Prop} (strong : Ensures action start holds)
    (implies : ∀ result final, holds result final → weaker result final) :
    Ensures action start weaker := by
  constructor
  intro result final ran
  exact implies result final (strong.met result final ran)

theorem Yields.ensures {action : EStateM error state value} {start : state}
    {holds : value → state → Prop} (yields : Yields action start holds) :
    Ensures action start holds := by
  constructor
  intro other last again
  rcases yields_iff.mp yields with ⟨result, final, ran, met⟩
  rw [ran] at again
  cases again
  exact met

/-- What is known of a result, if there is one, holds of the result that there is. -/
theorem Yields.ensured {action : EStateM error state value} {start : state}
    {first second : value → state → Prop} (yields : Yields action start first)
    (ensures : Ensures action start second) :
    Yields action start fun result final => first result final ∧ second result final := by
  rcases yields_iff.mp yields with ⟨result, final, ran, met⟩
  exact yields_iff.mpr ⟨result, final, ran, met, ensures.met result final ran⟩

theorem ensures_of_run {action : EStateM error state value} {start final : state} {result : value}
    (ran : action.run start = .ok result final) (holds : value → state → Prop) :
    Ensures action start holds ↔ holds result final := by
  constructor
  · intro ensures
    exact ensures.met result final ran
  · intro met
    constructor
    intro other last again
    rw [ran] at again
    cases again
    exact met

theorem ensures_of_failure {action : EStateM error state value} {start final : state}
    {failure : error} (failed : action.run start = .error failure final)
    (holds : value → state → Prop) : Ensures action start holds := by
  constructor
  intro result last ran
  rw [failed] at ran
  cases ran

theorem ensures_pure (result : value) (start : state) (holds : value → state → Prop) :
    Ensures (pure result : EStateM error state value) start holds ↔ holds result start :=
  ensures_of_run rfl holds

theorem ensures_throw (failure : error) (start : state) (holds : value → state → Prop) :
    Ensures (throw failure : EStateM error state value) start holds :=
  ensures_of_failure rfl holds

theorem ensures_bind (action : EStateM error state value)
    (next : value → EStateM error state image) (start : state)
    (holds : image → state → Prop) :
    Ensures (action >>= next) start holds ↔
      Ensures action start fun result middle => Ensures (next result) middle holds := by
  cases ran : action.run start with
  | ok result middle =>
      have whole : (action >>= next).run start = (next result).run middle := by
        rw [EStateM.run_bind, ran]
      rw [ensures_of_run ran]
      constructor
      · intro ensures
        constructor
        intro image final same
        exact ensures.met image final (whole.trans same)
      · intro ensures
        constructor
        intro image final same
        exact ensures.met image final (whole.symm.trans same)
  | error failure middle =>
      have whole : (action >>= next).run start = .error failure middle := by
        rw [EStateM.run_bind, ran]
      constructor
      · intro _
        exact ensures_of_failure ran _
      · intro _
        exact ensures_of_failure whole _

end ModuleLang

/-!
Two actions side by side. `Together left right start other holds` is about the values and
the final states of both, if both succeed; of a run that fails nothing is said, so that
actions with different bounds on their recursion can be compared. Conditions are pushed
through both actions at once.
-/

namespace ModuleLang

variable {error state value image result found : Type}

/-- Values and final states of two actions satisfy `holds` if both succeed. -/
structure Together (left : EStateM error state value) (right : EStateM error state image)
    (start other : state) (holds : value → state → image → state → Prop) : Prop where
  met : ∀ value final image last, left.run start = .ok value final →
    right.run other = .ok image last → holds value final image last

section Rules

variable {left : EStateM error state value} {right : EStateM error state image}
  {start other final last : state} {holds weaker : value → state → image → state → Prop}

theorem Together.weaken (strong : Together left right start other holds)
    (implies : ∀ value final image last, holds value final image last →
      weaker value final image last) : Together left right start other weaker := by
  constructor
  intro value final image last ran also
  exact implies value final image last (strong.met value final image last ran also)

/-- What is known of the first action alone. -/
theorem Together.of_left (ensures : Ensures left start fun value final =>
    ∀ image last, holds value final image last) : Together left right start other holds := by
  constructor
  intro value final image last ran _
  exact ensures.met value final ran image last

theorem Together.and_left {also : value → state → Prop}
    (strong : Together left right start other holds) (ensures : Ensures left start also) :
    Together left right start other fun value final image last =>
      holds value final image last ∧ also value final := by
  constructor
  intro value final image last ran again
  exact ⟨strong.met value final image last ran again, ensures.met value final ran⟩

theorem together_of_runs {value : value} {image : image} (ran : left.run start = .ok value final)
    (also : right.run other = .ok image last) :
    Together left right start other holds ↔ holds value final image last := by
  constructor
  · intro together
    exact together.met value final image last ran also
  · intro met
    constructor
    intro _ _ _ _ again others
    rw [ran] at again
    rw [also] at others
    cases again
    cases others
    exact met

theorem together_pure (value : value) (image : image) :
    Together (pure value : EStateM error state _) (pure image : EStateM error state _) start other
      holds ↔ holds value start image other :=
  together_of_runs rfl rfl

theorem together_throw_left (failure : error) :
    Together (throw failure : EStateM error state value) right start other holds := by
  constructor
  intro _ _ _ _ ran _
  cases ran

theorem together_throw_right (failure : error) :
    Together left (throw failure : EStateM error state image) start other holds := by
  constructor
  intro _ _ _ _ _ ran
  cases ran

theorem together_bind {left : EStateM error state value} {right : EStateM error state image}
    {next : value → EStateM error state result} {after : image → EStateM error state found}
    {holds : result → state → found → state → Prop} :
    Together (left >>= next) (right >>= after) start other holds ↔
      Together left right start other fun value middle image between =>
        Together (next value) (after image) middle between holds := by
  constructor
  · intro together
    constructor
    intro value middle image between ran also
    constructor
    intro result final found last more others
    apply together.met
    · rw [EStateM.run_bind, ran]
      exact more
    · rw [EStateM.run_bind, also]
      exact others
  · intro together
    constructor
    intro result final found last ran also
    rw [EStateM.run_bind] at ran also
    split at ran
    · rename_i value middle ran'
      split at also
      · rename_i image between also'
        exact (together.met value middle image between ran' also').met result final found last ran
          also
      · cases also
    · cases ran

end Rules

end ModuleLang

/-!
Actions that come to an end. `Ends action start holds` says that the action is not cut
off: it succeeds, and its value and final state satisfy `holds`, or it fails for a reason
of its own. A budget that is used up is no such reason, so the loops and recursions of an
action that ends would end without their budgets too. Nothing is asked of the tree that
the action begins with.
-/

namespace ModuleLang

variable {state value image : Type}

def Ends (action : EStateM InternalError state value) (start : state)
    (holds : value → state → Prop) : Prop :=
  match action.run start with
  | .ok result final => holds result final
  | .error failure _ => failure ≠ .exhausted

section Rules

variable {action : EStateM InternalError state value} {start : state}
  {holds weaker : value → state → Prop}

theorem Ends.weaken (strong : Ends action start holds)
    (implies : ∀ result final, holds result final → weaker result final) :
    Ends action start weaker := by
  unfold Ends at *
  cases ran : action.run start with
  | ok result final =>
      rw [ran] at strong
      exact implies result final strong
  | error failure final =>
      rw [ran] at strong
      exact strong

theorem ends_throw {failure : InternalError} (own : failure ≠ .exhausted) :
    Ends (throw failure : EStateM InternalError state value) start holds :=
  own

theorem ends_get (start : state) (holds : state → state → Prop) :
    Ends get start holds ↔ holds start start :=
  Iff.rfl

theorem ends_bind (action : EStateM InternalError state value)
    (next : value → EStateM InternalError state image) (start : state)
    (holds : image → state → Prop) :
    Ends (action >>= next) start holds ↔
      Ends action start fun result middle => Ends (next result) middle holds := by
  unfold Ends
  rw [EStateM.run_bind]
  cases action.run start <;> rfl

end Rules

namespace SourceTree

theorem ends_of_report {start : state} {first last : Position} {holds : Span → state → Prop}
    (met : ∀ span, holds span start) :
    Ends (ofExcept (Span.forReport first last)) start holds := by
  unfold Span.forReport
  cases Span.ofEnds? first last with
  | some span => exact met span
  | none => exact ends_throw (by simp)

theorem ends_on_spans (action : SpanTable.Action value) (tree : SourceTree)
    (holds : value → SourceTree → Prop) :
    Ends (onSpans action) tree holds ↔
      Ends action tree.spans fun result spans => holds result { tree with spans } := by
  unfold Ends EStateM.run onSpans EStateM.run
  cases action tree.spans <;> rfl

/-- Making a node fails only where the node has a span already. -/
theorem ends_create (kind : NodeKind NodeId) (span : Span) {start : SourceTree}
    {holds : NodeId → SourceTree → Prop} (met : ∀ node final, holds node final) :
    Ends (create kind span) start holds := by
  unfold create
  rw [ends_bind]
  change Ends (onSpans _ >>= _) _ holds
  rw [ends_bind, ends_on_spans]
  unfold SpanTable.add
  rw [ends_bind, ends_get]
  split
  · exact ends_throw (by simp)
  · exact met _ _

end SourceTree

end ModuleLang
