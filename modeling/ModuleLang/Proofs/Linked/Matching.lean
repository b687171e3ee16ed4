import ModuleLang.Proofs.Linked.Link
import ModuleLang.Proofs.Typing.Naming

/-!
Actions that do the same in linked states. Two actions match if, whenever both succeed in
linked states, their values are related and the states in which they end are linked again.
Of a run that fails nothing is said, so the bounds on the recursion may differ. The steps of
which inference is made match; the rules are put together from them.
-/

namespace ModuleLang

namespace Inference

variable {value image result found : Type}

/-- Two actions that do the same in linked states, if both succeed. -/
def Matches (link : Link) (related : value → image → Prop) (left : Inference value)
    (right : Inference image) : Prop :=
  ∀ one two, link.Linked one two → ∀ value final image last,
    Ran left one value final → Ran right two image last →
    related value image ∧ link.Linked final last

namespace Matches

variable {link : Link}

section Rules

variable {related weaker : value → image → Prop} {left : Inference value}
  {right : Inference image}

theorem pure {value : value} {image : image} (same : related value image) :
    Matches link related (pure value) (pure image) := by
  intro one two linked _ _ _ _ ran also
  cases ran
  cases also
  exact ⟨same, linked⟩

theorem throw_left (failure : InternalError) : Matches link related (throw failure) right := by
  intro _ _ _ _ _ _ _ ran
  cases ran

theorem throw_right (failure : InternalError) : Matches link related left (throw failure) := by
  intro _ _ _ _ _ _ _ _ also
  cases also

theorem weaken (strong : Matches link related left right)
    (implies : ∀ value image, related value image → weaker value image) :
    Matches link weaker left right := by
  intro one two linked value final image last ran also
  rcases strong one two linked value final image last ran also with ⟨same, linked⟩
  exact ⟨implies value image same, linked⟩

theorem bind {next : value → Inference result} {after : image → Inference found}
    {holds : result → found → Prop} (first : Matches link related left right)
    (rest : ∀ value image, related value image → Matches link holds (next value) (after image)) :
    Matches link holds (left >>= next) (right >>= after) := by
  intro one two linked _ _ _ _ ran also
  rcases ran_bind.mp ran with ⟨value, middle, ran, more⟩
  rcases ran_bind.mp also with ⟨image, between, also, others⟩
  rcases first one two linked value middle image between ran also with ⟨same, linked⟩
  exact rest value image same middle between linked _ _ _ _ more others

/-- The value of the first step is the same in both. -/
theorem next {left right : Inference value} {rest : value → Inference result}
    {after : value → Inference found} {holds : result → found → Prop}
    (first : Matches link Eq left right)
    (each : ∀ value, Matches link holds (rest value) (after value)) :
    Matches link holds (left >>= rest) (right >>= after) := by
  apply first.bind
  intro value image same
  rw [← same]
  exact each value

end Rules

section Lists

variable {related : value → image → Prop} {left : NodeId → Inference value}
  {right : NodeId → Inference image}

theorem mapM {items : List NodeId}
    (each : ∀ item ∈ items, Matches link related (left item) (right (link.rename item))) :
    Matches link (List.Forall₂ related) (items.mapM left) ((items.map link.rename).mapM right) := by
  induction items with
  | nil => exact pure .nil
  | cons head tail ih =>
      rw [List.map_cons, List.mapM_cons, List.mapM_cons]
      apply (each head List.mem_cons_self).bind
      intro value image same
      apply (ih fun item member => each item (List.mem_cons_of_mem _ member)).bind
      intro values images more
      exact pure (.cons same more)

theorem values {right : NodeId → Inference value} {items : List NodeId}
    (each : ∀ item ∈ items, Matches link Eq (left item) (right (link.rename item))) :
    Matches link Eq (items.mapM left) ((items.map link.rename).mapM right) := by
  apply (mapM each).weaken
  intro values images same
  rw [List.forall₂_eq_eq_eq] at same
  exact same

theorem option_values {right : NodeId → Inference value} {held : Option NodeId}
    (each : ∀ item ∈ held.toList, Matches link Eq (left item) (right (link.rename item))) :
    Matches link Eq (held.mapM left) ((held.map link.rename).mapM right) := by
  cases held with
  | none => exact pure rfl
  | some item =>
      rw [Option.map_some, Option.mapM_some, Option.mapM_some, map_eq_pure_bind, map_eq_pure_bind]
      apply (each item List.mem_cons_self).next
      intro value
      exact pure rfl

theorem forM {left right : NodeId → Inference PUnit} {items : List NodeId}
    (each : ∀ item ∈ items, Matches link Eq (left item) (right (link.rename item))) :
    Matches link Eq (items.forM left) ((items.map link.rename).forM right) := by
  induction items with
  | nil => exact pure rfl
  | cons head tail ih =>
      apply (each head List.mem_cons_self).next
      intro _
      exact ih fun item member => each item (List.mem_cons_of_mem _ member)

theorem option_forM {left right : NodeId → Inference PUnit} {held : Option NodeId}
    (each : ∀ item ∈ held.toList, Matches link Eq (left item) (right (link.rename item))) :
    Matches link Eq (held.forM left) ((held.map link.rename).forM right) := by
  cases held with
  | none => exact pure rfl
  | some item => exact each item List.mem_cons_self

end Lists

end Matches

/-- A node of the first inference, and that node in the second one. -/
def Link.Twin (link : Link) (id other : NodeId) : Prop := link.Own id ∧ other = link.rename id

theorem Link.twins {link : Link} {ids others : List NodeId}
    (twins : List.Forall₂ link.Twin ids others) :
    others = ids.map link.rename ∧ ∀ id ∈ ids, link.Own id := by
  induction twins with
  | nil => exact ⟨rfl, List.forall_mem_nil _⟩
  | cons first _ ih =>
      rw [List.map_cons, first.2, ih.1]
      exact ⟨rfl, List.forall_mem_cons.mpr ⟨first.1, ih.2⟩⟩

/-- Surroundings in which inference does the same. -/
structure Agree (one two : Environment) : Prop where
  fileName : two.fileName = one.fileName
  host : two.host = one.host
  candidates : ∀ name, candidates two name = candidates one name

section Steps

variable {link : Link} {node : NodeId}

theorem matches_get : Matches link link.Linked get get := by
  intro one two linked _ _ _ _ ran also
  cases ran
  cases also
  exact ⟨linked, linked⟩

theorem matches_modify {step other : InferenceState → InferenceState}
    (kept : ∀ one two, link.Linked one two → link.Linked (step one) (other two)) :
    Matches link Eq (modify step) (modify other) := by
  intro one two linked _ _ _ _ ran also
  cases ran
  cases also
  exact ⟨rfl, kept one two linked⟩

theorem matches_kind {related : value → image → Prop}
    {next : Option (NodeKind NodeId) → Inference value}
    {after : Option (NodeKind NodeId) → Inference image} (own : link.Own node)
    (absent : Matches link related (next none) (after none))
    (each : ∀ kind : NodeKind NodeId, (∀ child ∈ kind.children, link.Own child) →
      Matches link related (next (some kind)) (after (some (kind.map link.rename)))) :
    Matches link related (kind? node >>= next) (kind? (link.rename node) >>= after) := by
  intro one two linked
  have kinds := linked.trees.kind own
  have slots := fun kind => linked.trees.closed node kind own
  suffices both : Matches link related (next (one.kind? node))
      (after (two.kind? (link.rename node))) from both one two linked
  change Matches link related (next (one.tree.arena.kind? node))
    (after (two.tree.arena.kind? (link.rename node)))
  rw [kinds]
  cases known : one.tree.arena.kind? node with
  | none => exact absent
  | some kind => exact each kind (slots kind known)

theorem matches_type (own : link.Own node) :
    Matches link Eq (type? node) (type? (link.rename node)) := by
  intro one two linked _ _ _ _ ran also
  cases ran
  cases also
  exact ⟨(linked.trees.type own).symm, linked⟩

theorem matches_scopes : Matches link (fun names others => others = names.renamed link.rename ∧
    ∀ id ∈ names.nodes, link.Own id) scopes scopes := by
  intro one two linked _ _ _ _ ran also
  cases ran
  cases also
  exact ⟨⟨linked.scopes, linked.bound⟩, linked⟩

theorem matches_on_scopes {step other : Scopes → Scopes}
    (renamed : ∀ names, other (names.renamed link.rename) = (step names).renamed link.rename)
    (nodes : ∀ names : Scopes, ∀ id ∈ (step names).nodes, link.Own id ∨ id ∈ names.nodes) :
    Matches link Eq (onScopes step) (onScopes other) := by
  apply matches_modify
  intro one two linked
  have bound : ∀ id ∈ (step one.scopes).nodes, link.Own id := by
    intro id member
    rcases nodes one.scopes id member with own | before
    · exact own
    · exact linked.bound id before
  have kept := linked.with_scopes bound
  rw [← renamed, ← linked.scopes] at kept
  exact kept

theorem matches_declare (own : link.Own node) (name : String) (type : Option Ty)
    (kind : BindingKind) :
    Matches link Eq (onScopes (Scopes.declare name ⟨type, node, kind⟩))
      (onScopes (Scopes.declare name ⟨type, link.rename node, kind⟩)) := by
  apply matches_on_scopes
  · intro names
    exact Scopes.declare_renamed link.rename names name ⟨type, node, kind⟩
  · intro names id member
    rcases Scopes.nodes_declare member with rfl | old
    · exact .inl own
    · exact .inr old

theorem matches_set_type (own : link.Own node) (type : Option Ty) :
    Matches link Eq (setType node type) (setType (link.rename node) type) := by
  intro one two linked _ _ _ _ ran also
  cases ran
  cases also
  refine ⟨rfl, linked.with_trees (linked.trees.set_type own type) ?_⟩
  exact Nat.le_of_eq (Arena.size_setType _ _ _).symm

theorem matches_set_kind (own : link.Own node) {kind : NodeKind NodeId}
    (slots : ∀ child ∈ kind.children, link.Own child) :
    Matches link Eq (onTree (SourceTree.setKind node kind))
      (onTree (SourceTree.setKind (link.rename node) (kind.map link.rename))) := by
  intro one two linked _ _ _ _ ran also
  cases ran
  cases also
  refine ⟨rfl, linked.with_trees (linked.trees.set_kind own slots) ?_⟩
  exact Nat.le_of_eq (Arena.size_setKind _ _ _).symm

section Reports

variable {environment other : Environment} (agrees : Agree environment other)

include agrees

theorem matches_report (own : link.Own node) (kind : DiagnosticKind) :
    Matches link Eq (report environment node kind) (report other (link.rename node) kind) := by
  intro one two linked _ _ _ _ ran also
  rcases ran_report ran with ⟨span, known, rfl⟩
  rcases ran_report also with ⟨place, placed, rfl⟩
  have same : two.span? (link.rename node) = one.span? node := linked.trees.span node own
  rw [known, placed] at same
  cases same
  rw [agrees.fileName]
  exact ⟨rfl, linked.reported _⟩

/-- A duplicate is noted and reported. -/
theorem matches_notice (own : link.Own node) (name : String) :
    Matches link Eq
      (do
        modify fun state => { state with duplicates := node :: state.duplicates }
        report environment node (.duplicateVariable name))
      (do
        modify fun state => { state with duplicates := link.rename node :: state.duplicates }
        report other (link.rename node) (.duplicateVariable name)) := by
  intro one two linked value final image last ran also
  rcases ran_bind.mp ran with ⟨_, middle, noted, ran⟩
  rcases ran_bind.mp also with ⟨_, between, others, also⟩
  cases noted
  cases others
  -- A node that is reported has a span, so it is one of the tree.
  have known : (one.span? node).isSome := by
    rcases ran_report ran with ⟨span, known, -⟩
    exact Option.isSome_of_eq_some known
  exact matches_report agrees own _ _ _ (linked.noted own known) value final image last ran also

theorem matches_report_duplicate {earlier later : NodeId} (first : link.Own earlier)
    (second : link.Own later) (name : String) :
    Matches link Eq (reportDuplicate environment earlier later name)
      (reportDuplicate other (link.rename earlier) (link.rename later) name) := by
  unfold reportDuplicate
  apply @Matches.forM link _ _ [earlier, later]
  intro node member
  have own : link.Own node := by
    rcases List.mem_pair.mp member with rfl | rfl
    · exact first
    · exact second
  apply matches_get.bind
  intro one two linked
  have same : two.duplicates.contains (link.rename node) = one.duplicates.contains node := by
    rw [Bool.eq_iff_iff, List.contains_iff_mem, List.contains_iff_mem]
    exact linked.duplicates node own
  rw [same]
  split
  · exact matches_notice agrees own name
  · exact .pure rfl

theorem matches_resolve_type (own : link.Own node) :
    Matches link Eq (resolveType environment node) (resolveType other (link.rename node)) := by
  unfold resolveType
  apply matches_kind own (.throw_left _)
  intro kind slots
  cases kind with
  | typeRef name ranks =>
      dsimp only [NodeKind.map]
      rw [agrees.host]
      split
      · apply (matches_report agrees own _).next
        intro _
        exact .pure rfl
      · apply (matches_set_type own _).next
        intro _
        exact .pure rfl
  | _ => exact .throw_left _

end Reports

end Steps

end Inference

end ModuleLang
