import Mathlib.Data.List.Forall2
import ModuleLang.Tree.SourceTree

/-!
Success of an action from a given state. `Yields action state holds` says that
the action does not fail there and that its value and final state satisfy
`holds`; an exhausted budget is a failure like any other. A condition is pushed
backwards through an action by the equations below, and the specification of a
part is put in with `Yields.weaken`.
-/

namespace ModuleLang

variable {error state value image : Type}

/-- The action succeeds, with a value and a final state that satisfy `holds`. -/
def Yields (action : EStateM error state value) (start : state)
    (holds : value → state → Prop) : Prop :=
  match action.run start with
  | .ok result final => holds result final
  | .error _ _ => False

theorem yields_iff {action : EStateM error state value} {start : state}
    {holds : value → state → Prop} :
    Yields action start holds ↔
      ∃ result final, action.run start = .ok result final ∧ holds result final := by
  unfold Yields
  cases action.run start with
  | ok result final =>
      constructor
      · intro met
        exact ⟨result, final, rfl, met⟩
      · rintro ⟨other, last, same, met⟩
        cases same
        exact met
  | error failure final => simp

theorem Yields.weaken {action : EStateM error state value} {start : state}
    {holds weaker : value → state → Prop} (strong : Yields action start holds)
    (implies : ∀ result final, holds result final → weaker result final) :
    Yields action start weaker := by
  obtain ⟨result, final, ran, met⟩ := yields_iff.mp strong
  exact yields_iff.mpr ⟨result, final, ran, implies result final met⟩

theorem Yields.and {action : EStateM error state value} {start : state}
    {left right : value → state → Prop} (first : Yields action start left)
    (second : Yields action start right) :
    Yields action start fun result final => left result final ∧ right result final := by
  obtain ⟨result, final, ran, met⟩ := yields_iff.mp first
  obtain ⟨other, last, again, also⟩ := yields_iff.mp second
  rw [ran] at again
  cases again
  exact yields_iff.mpr ⟨result, final, ran, met, also⟩

theorem yields_pure (result : value) (start : state) (holds : value → state → Prop) :
    Yields (pure result : EStateM error state value) start holds ↔ holds result start :=
  Iff.rfl

theorem yields_bind (action : EStateM error state value)
    (next : value → EStateM error state image) (start : state)
    (holds : image → state → Prop) :
    Yields (action >>= next) start holds ↔
      Yields action start fun result middle => Yields (next result) middle holds := by
  unfold Yields
  rw [EStateM.run_bind]
  cases action.run start <;> rfl

theorem yields_map (change : value → image) (action : EStateM error state value)
    (start : state) (holds : image → state → Prop) :
    Yields (change <$> action) start holds ↔
      Yields action start fun result final => holds (change result) final := by
  unfold Yields EStateM.run
  change (match EStateM.map change action start with
    | .ok result final => holds result final
    | .error _ _ => False) ↔ _
  unfold EStateM.map
  cases action start <;> rfl

theorem yields_get (start : state) (holds : state → state → Prop) :
    Yields (get : EStateM error state state) start holds ↔ holds start start :=
  Iff.rfl

theorem yields_modify (step : state → state) (start : state)
    (holds : PUnit → state → Prop) :
    Yields (modify step : EStateM error state PUnit) start holds ↔ holds ⟨⟩ (step start) :=
  Iff.rfl

/-- What a run of an action keeps, a run of it for every member of a list keeps,
if one run after the other does. -/
theorem yields_forM {item : Type} (visit : item → EStateM error state PUnit)
    (keeps : List item → state → Prop)
    (step : ∀ head tail start, keeps (head :: tail) start →
      Yields (visit head) start fun _ final => keeps tail final) :
    ∀ (items : List item) (start : state), keeps items start →
      Yields (items.forM visit) start fun _ final => keeps [] final := by
  intro items
  induction items with
  | nil =>
      intro start kept
      exact kept
  | cons head tail ih =>
      intro start kept
      change Yields (visit head >>= fun _ => tail.forM visit) start _
      rw [yields_bind]
      exact (step head tail start kept).weaken fun _ middle held => ih middle held

/-- The same for runs whose values are collected. -/
theorem yields_mapM {item : Type} (visit : item → EStateM error state image)
    (keeps : List image → List item → state → Prop)
    (step : ∀ found head tail start, keeps found (head :: tail) start →
      Yields (visit head) start fun result final => keeps (found ++ [result]) tail final) :
    ∀ (items : List item) (found : List image) (start : state), keeps found items start →
      Yields (items.mapM visit) start fun results final => keeps (found ++ results) [] final := by
  intro items
  induction items with
  | nil =>
      intro found start kept
      simpa only [List.mapM_nil, yields_pure, List.append_nil] using kept
  | cons head tail ih =>
      intro found start kept
      rw [List.mapM_cons, yields_bind]
      refine (step found head tail start kept).weaken fun result middle held => ?_
      rw [yields_bind]
      refine (ih (found ++ [result]) middle held).weaken fun results final met => ?_
      simpa only [yields_pure, List.append_assoc, List.singleton_append] using met

/-- A member of the second list has its partner in the first one. -/
theorem partner_of_member {first second : Type} {related : first → second → Prop}
    {left : List first} {right : List second} {other : second}
    (all : List.Forall₂ related left right) (member : other ∈ right) :
    ∃ item ∈ left, related item other := by
  induction all with
  | nil => cases member
  | @cons item image _ _ same _ ih =>
      obtain rfl | member := List.mem_cons.mp member
      · exact ⟨item, List.mem_cons_self, same⟩
      · obtain ⟨found, inside, same⟩ := ih member
        exact ⟨found, List.mem_cons_of_mem _ inside, same⟩

/-- Runs that only look at the state. -/
theorem yields_mapM_each {item : Type} {visit : item → EStateM error state image}
    {holds : item → image → Prop} {items : List item} {start : state}
    (each : ∀ item ∈ items, Yields (visit item) start fun result final =>
      final = start ∧ holds item result) :
    Yields (items.mapM visit) start fun results final =>
      final = start ∧ List.Forall₂ holds items results := by
  induction items with
  | nil => exact ⟨rfl, .nil⟩
  | cons head tail ih =>
      rw [List.mapM_cons, yields_bind]
      refine (each head List.mem_cons_self).weaken ?_
      rintro result _ ⟨rfl, first⟩
      rw [yields_bind]
      refine (ih fun item member => each item (List.mem_cons_of_mem _ member)).weaken ?_
      rintro results _ ⟨rfl, rest⟩
      exact ⟨rfl, .cons first rest⟩

theorem yields_mapM_same {item : Type} {visit : item → EStateM error state image}
    {holds : image → Prop} {items : List item} {start : state}
    (each : ∀ item ∈ items, Yields (visit item) start fun result final =>
      final = start ∧ holds result) :
    Yields (items.mapM visit) start fun results final =>
      final = start ∧ ∀ result ∈ results, holds result := by
  refine (yields_mapM_each each).weaken ?_
  rintro results final ⟨same, met⟩
  refine ⟨same, fun result member => ?_⟩
  obtain ⟨_, -, held⟩ := partner_of_member met member
  exact held

namespace SourceTree

theorem yields_on_spans (action : SpanTable.Action value) (tree : SourceTree)
    (holds : value → SourceTree → Prop) :
    Yields (onSpans action) tree holds ↔
      Yields action tree.spans fun result spans => holds result { tree with spans } := by
  unfold Yields EStateM.run onSpans EStateM.run
  cases action tree.spans <;> rfl

theorem yields_of_except (found : Except InternalError value) (start : state)
    (holds : value → state → Prop) :
    Yields (ofExcept found : EStateM InternalError state value) start holds ↔
      ∃ result, found = .ok result ∧ holds result start := by
  cases found with
  | ok result =>
      change holds result start ↔ _
      simp
  | error failure =>
      change False ↔ _
      simp

end SourceTree

end ModuleLang
