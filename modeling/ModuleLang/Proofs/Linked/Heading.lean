import Mathlib.Data.List.Perm.Basic
import ModuleLang.Proofs.Linked.Statement
import ModuleLang.Proofs.Typing.Module

/-!
Work on one part of a tree after the other. What one turn finds in its part is what was
there at the beginning, and what it leaves there, and the nodes that it adds, are not
changed by the others. So two runs that take the turns in different orders can be compared
turn by turn.
-/

namespace ModuleLang

namespace Inference

namespace Spares

variable {part other : Region} {before middle after : SourceTree}

theorem refl (part : Region) (tree : SourceTree) : Spares part tree tree :=
  ⟨Nat.le_refl _, fun _ _ _ => rfl, fun _ _ _ => rfl⟩

theorem trans (first : Spares part before middle) (second : Spares other middle after) :
    Spares (fun id => part id ∨ other id) before after where
  size := Nat.le_trans first.size second.size
  node id old apart :=
    (second.node id (Nat.lt_of_lt_of_le old first.size) fun inside => apart (.inr inside)).trans
      (first.node id old fun inside => apart (.inl inside))
  span id old apart :=
    (second.span id (Nat.lt_of_lt_of_le old first.size) fun inside => apart (.inr inside)).trans
      (first.span id old fun inside => apart (.inl inside))

theorem weaken (spares : Spares part before after) (subset : ∀ id, part id → other id) :
    Spares other before after where
  size := spares.size
  node id old apart := spares.node id old fun inside => apart (subset id inside)
  span id old apart := spares.span id old fun inside => apart (subset id inside)

end Spares

variable {value : Type}

/-- The turn of an item in a run: its value and what it reported. -/
structure Turn (visit : Inference value) (part : Region) (start before after final : InferenceState)
    (row : value × List Diagnostic) : Prop where
  ran : Ran visit before row.1 after
  reports : after.diagnostics = before.diagnostics ++ row.2
  node : ∀ id, part id → before.tree.arena.node? id = start.tree.arena.node? id
  span : ∀ id, part id → before.span? id = start.span? id
  keptNode : ∀ id, id.index < after.size → part id ∨ before.size ≤ id.index →
    final.tree.arena.node? id = after.tree.arena.node? id
  keptSpan : ∀ id, id.index < after.size → part id ∨ before.size ≤ id.index →
    final.span? id = after.span? id

/-- Two turns that reported the same. -/
theorem Turn.same_reports {visit again : Inference value} {part other : Region}
    {start before after final restart earlier later last : InferenceState}
    {row column : value × List Diagnostic} (turn : Turn visit part start before after final row)
    (turned : Turn again other restart earlier later last column)
    (linked : ∃ more, after.diagnostics = before.diagnostics ++ more ∧
      later.diagnostics = earlier.diagnostics ++ more) : row.2 = column.2 := by
  rcases linked with ⟨more, first, second⟩
  rw [turn.reports, List.append_cancel_left_eq] at first
  rw [turned.reports, List.append_cancel_left_eq] at second
  exact first.trans second.symm

section Runs

variable {visit : NodeId → Inference value} {part : NodeId → Region}
  {keeps : List NodeId → InferenceState → Prop} {start final : InferenceState}

/-- An item has its turn while an invariant is kept. -/
def Turned (visit : NodeId → Inference value) (part : NodeId → Region)
    (keeps : List NodeId → InferenceState → Prop) (start final : InferenceState) (item : NodeId)
    (row : value × List Diagnostic) : Prop :=
  ∃ before after left, keeps (item :: left) before ∧ keeps left after ∧
    Turn (visit item) (part item) start before after final row

/-- What a run over items does, seen turn by turn. -/
structure Turns (visit : NodeId → Inference value) (part : NodeId → Region)
    (keeps : List NodeId → InferenceState → Prop) (start final : InferenceState)
    (items : List NodeId) (rows : List (value × List Diagnostic)) : Prop where
  each : List.Forall₂ (Turned visit part keeps start final) items rows
  reports : final.diagnostics = start.diagnostics ++ rows.flatMap Prod.snd
  spares : Spares (fun id => ∃ item ∈ items, part item id) start.tree final.tree
  kept : keeps [] final

theorem Turned.later {middle : InferenceState} {item : NodeId} {row : value × List Diagnostic}
    {changed : Region} (turned : Turned visit part keeps middle final item row)
    (spares : Spares changed start.tree middle.tree)
    (old : ∀ id, part item id → id.index < start.size)
    (apart : ∀ id, part item id → ¬ changed id) :
    Turned visit part keeps start final item row := by
  rcases turned with ⟨before, after, left, first, second, turn⟩
  refine ⟨before, after, left, first, second, turn.ran, turn.reports, ?_, ?_, turn.keptNode,
    turn.keptSpan⟩
  · intro id inside
    exact (turn.node id inside).trans (spares.node id (old id inside) (apart id inside))
  · intro id inside
    exact (turn.span id inside).trans (spares.span id (old id inside) (apart id inside))

theorem turns_of_ran
    (step : ∀ head tail start value final, keeps (head :: tail) start →
      Ran (visit head) start value final → keeps tail final ∧
        Spares (part head) start.tree final.tree ∧ start.diagnostics <+: final.diagnostics)
    {items : List NodeId}
    (apart : items.Pairwise fun first second => ∀ id, part first id → ¬ part second id)
    (old : ∀ item ∈ items, ∀ id, part item id → id.index < start.size)
    (kept : keeps items start) {values : List value}
    (ran : Ran (items.mapM visit) start values final) :
    ∃ rows, rows.map Prod.fst = values ∧ Turns visit part keeps start final items rows := by
  induction items generalizing start values with
  | nil =>
      cases ran
      exact ⟨[], rfl, .nil, (List.append_nil _).symm, .refl _ _, kept⟩
  | cons head tail ih =>
      rw [List.mapM_cons] at ran
      rcases ran_bind.mp ran with ⟨value, middle, first, more⟩
      rcases ran_bind.mp more with ⟨values, last, rest, done⟩
      cases done
      rcases step head tail start value middle kept first with ⟨next, spares, piece, reports⟩
      rcases List.pairwise_cons.mp apart with ⟨away, others⟩
      have parsed : ∀ item ∈ tail, ∀ id, part item id → id.index < start.size := by
        intro item member
        exact old item (List.mem_cons_of_mem _ member)
      have later : ∀ item ∈ tail, ∀ id, part item id → id.index < middle.size := by
        intro item member id inside
        exact Nat.lt_of_lt_of_le (parsed item member id inside) spares.size
      rcases ih others later next rest with ⟨rows, same, turns⟩
      -- Neither the part nor the nodes that were added belong to a later part.
      have unmet : ∀ id, part head id ∨ start.size ≤ id.index →
          ¬ ∃ item ∈ tail, part item id := by
        rintro id (inside | new) ⟨item, member, also⟩
        · exact away item member id inside also
        · exact Nat.not_lt.mpr new (parsed item member id also)
      refine ⟨(value, piece) :: rows, congrArg (List.cons value) same, .cons ?_ ?_, ?_, ?_,
        turns.kept⟩
      · refine ⟨start, middle, tail, kept, next, first, reports.symm, fun _ _ => rfl,
          fun _ _ => rfl, ?_, ?_⟩
        · intro id bound own
          exact turns.spares.node id bound (unmet id own)
        · intro id bound own
          exact turns.spares.span id bound (unmet id own)
      · have known : ∀ item ∈ tail, (∀ id, part item id → id.index < start.size) ∧
            ∀ id, part item id → ¬ part head id := by
          intro item member
          exact ⟨parsed item member, fun id inside also => away item member id also inside⟩
        apply ((List.forall₂_and_left _ _).mpr ⟨known, turns.each⟩).imp
        rintro item row ⟨⟨bound, unchanged⟩, turned⟩
        exact turned.later spares bound unchanged
      · rw [turns.reports, ← reports, List.flatMap_cons, List.append_assoc]
      · apply (spares.trans turns.spares).weaken
        rintro id (inside | ⟨item, member, inside⟩)
        · exact ⟨head, List.mem_cons_self, inside⟩
        · exact ⟨item, List.mem_cons_of_mem _ member, inside⟩

end Runs

section Orders

variable {item row : Type} {first second : item → row → Prop}
  (alike : ∀ item left right, first item left → second item right → left = right)
  {items others : List item} {lefts rights : List row}

include alike

theorem rows_unique (one : List.Forall₂ first items lefts)
    (two : List.Forall₂ second items rights) : rights = lefts := by
  induction one generalizing rights with
  | nil =>
      cases two
      rfl
  | cons known _ ih =>
      cases two with
      | cons also rest => rw [alike _ _ _ known also, ih rest]

theorem rows_reordered (order : others.Perm items) (one : List.Forall₂ first items lefts)
    (two : List.Forall₂ second others rights) : rights.Perm lefts := by
  rcases List.perm_comp_forall₂ order one with ⟨rows, known, same⟩
  rw [rows_unique alike known two]
  exact same

/-- Where some of the items are in the same order, so are their rows. -/
theorem rows_selected {chosen : item → Bool} {kept : row → Bool}
    (known : ∀ item row, first item row → chosen item = kept row)
    (also : ∀ item row, second item row → chosen item = kept row)
    (order : others.filter chosen = items.filter chosen) (one : List.Forall₂ first items lefts)
    (two : List.Forall₂ second others rights) : rights.filter kept = lefts.filter kept := by
  have left := List.rel_filter (fun item row related => Bool.eq_iff_iff.mp (known item row related))
    one
  have right := List.rel_filter (fun item row related => Bool.eq_iff_iff.mp (also item row related))
    two
  rw [order] at right
  exact rows_unique alike left right

end Orders

end Inference

/-!
Signatures in turn. What is looked at for a signature lies below its function, and nothing
but types is changed there. So a signature does not depend on the place of its function
among the others.
-/

namespace Inference

variable {value : Type} {environment other : Environment}

theorem agree_refl (environment : Environment) : Agree environment environment :=
  ⟨rfl, rfl, fun _ => rfl⟩

/-- What is left of a tree, and of the reports, by work on a part. -/
structure Ended (part : Region) (before after : InferenceState) : Prop extends
    Confined part before.tree after.tree where
  reports : before.diagnostics <+: after.diagnostics
  noted : ∀ id ∈ after.duplicates, id ∈ before.duplicates ∨
    (part id ∨ before.size ≤ id.index) ∧ id.index < after.size

/-- An action that does the same twice works on its part only. -/
theorem Link.Awaits.ended {part : Region} {before after : InferenceState}
    {action : Inference value} {result : value} (awaits : Link.Awaits part before)
    (again : ∀ link : Link, link.part = part → Matches link Eq action action)
    (ran : Ran action before result after) : Ended part before after := by
  have begun := Link.linked_of_awaits awaits awaits (fun _ _ => rfl) (fun _ _ => rfl) rfl rfl
  have linked := (again _ rfl _ _ begun _ _ _ _ ran ran).2
  rcases linked.reports with ⟨more, same, -⟩
  exact ⟨linked.trees.here, ⟨more, same.symm⟩, linked.notedHere⟩

/-- A node of the part that refers to the part only is the same in both. -/
theorem Link.Linked.node_of_part {link : Link} {one two : InferenceState} {id : NodeId}
    (linked : link.Linked one two) (inside : link.part id)
    (closed : ∀ kind, one.kind? id = some kind → ∀ child ∈ kind.children, link.part child) :
    two.tree.arena.node? id = one.tree.arena.node? id := by
  have same := linked.trees.node id (.inl inside)
  rw [Link.rename_part inside] at same
  rw [same]
  cases known : one.tree.arena.node? id with
  | none => rfl
  | some node =>
      refine congrArg some (Node.renamed_same fun child slot => Link.rename_part ?_)
      exact closed node.kind (congrArg (Option.map Node.kind) known) child slot

/-- Nothing but types was changed, and reports were added. -/
structure Retyped (before after : InferenceState) : Prop where
  kind : ∀ id, after.kind? id = before.kind? id
  size : after.size = before.size
  spans : after.tree.spans = before.tree.spans
  scopes : after.scopes = before.scopes
  result : after.result = before.result
  loopDepth : after.loopDepth = before.loopDepth
  duplicates : after.duplicates = before.duplicates

theorem retyped_chain : Chained Retyped where
  refl _ := ⟨fun _ => rfl, rfl, rfl, rfl, rfl, rfl, rfl⟩
  trans first second :=
    { kind := fun id => (second.kind id).trans (first.kind id)
      size := second.size.trans first.size
      spans := second.spans.trans first.spans
      scopes := second.scopes.trans first.scopes
      result := second.result.trans first.result
      loopDepth := second.loopDepth.trans first.loopDepth
      duplicates := second.duplicates.trans first.duplicates }

theorem keeps_retyped_report (node : NodeId) (kind : DiagnosticKind) :
    Keeps Retyped (report environment node kind) := by
  intro start _ final ran
  rcases report_adds ran with ⟨found, -, rfl⟩
  exact ⟨fun _ => rfl, rfl, rfl, rfl, rfl, rfl, rfl⟩

theorem keeps_retyped_set_type (node : NodeId) (type : Option Ty) :
    Keeps Retyped (setType node type) := by
  intro start _ final ran
  cases ran
  exact ⟨fun id => Arena.kind?_setType _ _ _ _, Arena.size_setType _ _ _, rfl, rfl, rfl, rfl, rfl⟩

theorem keeps_retyped_kind (node : NodeId) : Keeps Retyped (kind? node) :=
  retyped_chain.keeps_bind retyped_chain.keeps_get fun _ => retyped_chain.keeps_pure _

theorem keeps_retyped_resolve_type (node : NodeId) :
    Keeps Retyped (resolveType environment node) := by
  apply retyped_chain.keeps_bind (keeps_retyped_kind node)
  intro kind
  split
  · split
    · apply retyped_chain.keeps_bind (keeps_retyped_report _ _)
      exact fun _ => retyped_chain.keeps_pure _
    · apply retyped_chain.keeps_bind (keeps_retyped_set_type _ _)
      exact fun _ => retyped_chain.keeps_pure _
  · exact Chained.keeps_throw _

theorem keeps_retyped_signature (function : NodeId) :
    Keeps Retyped (signature environment function) := by
  have parameter : ∀ parameter, Keeps Retyped (parameterType environment parameter) := by
    intro parameter
    apply retyped_chain.keeps_bind (keeps_retyped_kind parameter)
    intro kind
    split
    · apply retyped_chain.keeps_bind (keeps_retyped_resolve_type _)
      intro type
      apply retyped_chain.keeps_bind (keeps_retyped_set_type _ _)
      exact fun _ => retyped_chain.keeps_pure _
    · exact Chained.keeps_throw _
  have result : ∀ written, Keeps Retyped (resultType environment written) := by
    intro written
    cases written with
    | none => exact retyped_chain.keeps_pure _
    | some written => exact keeps_retyped_resolve_type written
  apply retyped_chain.keeps_bind (keeps_retyped_kind function)
  intro kind
  split
  · apply retyped_chain.keeps_bind (result _)
    intro _
    apply retyped_chain.keeps_bind (retyped_chain.keeps_mapM parameter _)
    exact fun _ => retyped_chain.keeps_pure _
  · exact Chained.keeps_throw _

section Turns

variable {limit : Position} {origin reordered : SourceTree}

/-- Signatures are looked at in a tree of which nothing but types was changed. -/
def Heads (origin : SourceTree) (left : List NodeId) (state : InferenceState) : Prop :=
  Retyped (.initial origin) state ∧ ∀ function ∈ left, function.index < origin.arena.size

theorem reachable_bounded (constructed : origin.Constructed limit) {function id : NodeId}
    (bound : function.index < origin.arena.size) (below : origin.arena.Reachable function id) :
    id.index < origin.arena.size :=
  Nat.lt_of_le_of_lt (constructed.forest.index_le below) bound

theorem closed_of_kind {function id : NodeId} {kind : NodeKind NodeId}
    (below : origin.arena.Reachable function id) (found : origin.arena.kind? id = some kind) :
    ∀ child ∈ kind.children, origin.arena.Reachable function child := by
  intro child slot
  rw [← Arena.children_of_kind found] at slot
  exact Relation.ReflTransGen.tail below slot

theorem Retyped.awaits {state : InferenceState} (retyped : Retyped (.initial origin) state)
    (constructed : origin.Constructed limit) {function : NodeId}
    (bound : function.index < origin.arena.size) :
    Link.Awaits (origin.arena.Reachable function) state where
  old id below := by
    rw [retyped.size]
    exact reachable_bounded constructed bound below
  closed id kind below known := by
    rw [retyped.kind] at known
    exact closed_of_kind below known
  placed id found := by
    rw [InferenceState.span?, retyped.spans] at found
    rw [retyped.size]
    exact (constructed.recorded id).mp found
  noted id member := by
    rw [retyped.duplicates] at member
    cases member
  scopes := retyped.scopes

theorem matches_of_part {link : Link} (agrees : Agree environment other) {function : NodeId}
    (inside : link.part function) :
    Matches link Eq (signature environment function) (signature other function) := by
  have matched := @matches_signature link environment other agrees function (.inl inside)
  rw [Link.rename_part inside] at matched
  exact matched

theorem turns_of_signatures (constructed : origin.Constructed limit) {functions : List NodeId}
    (bound : ∀ function ∈ functions, function.index < origin.arena.size)
    (apart : functions.Pairwise fun first second => ∀ id, origin.arena.Reachable first id →
      ¬ origin.arena.Reachable second id)
    {signatures : List Signature} {signed : InferenceState}
    (ran : Ran (functions.mapM (signature environment)) (.initial origin) signatures signed) :
    ∃ rows, rows.map Prod.fst = signatures ∧ Turns (signature environment)
      origin.arena.Reachable (Heads origin) (.initial origin) signed functions rows := by
  refine turns_of_ran ?_ apart ?_ ⟨retyped_chain.refl _, bound⟩ ran
  · rintro head tail start value final ⟨retyped, known⟩ ran
    rcases List.forall_mem_cons.mp known with ⟨first, rest⟩
    have ended := (retyped.awaits constructed first).ended
      (fun link same => matches_of_part (agree_refl environment) (same ▸ .refl)) ran
    refine ⟨⟨retyped_chain.trans retyped ?_, rest⟩, ended.toSpares, ended.reports⟩
    exact keeps_retyped_signature _ _ _ _ ran
  · intro function member id below
    exact reachable_bounded constructed (bound function member) below

/-- The signature of a function is found, and what is below it is left, as in another
order. -/
theorem signatures_alike (constructed : origin.Constructed limit)
    (again : reordered.Constructed limit)
    (reachable : reordered.arena.Reachable = origin.arena.Reachable)
    (agrees : Agree environment other) {function : NodeId}
    (node : ∀ id, origin.arena.Reachable function id →
      reordered.arena.node? id = origin.arena.node? id ∧
      reordered.spans.span? id = origin.spans.span? id)
    {signed resigned : InferenceState} {row column : Signature × List Diagnostic}
    (one : Turned (signature environment) origin.arena.Reachable (Heads origin)
      (.initial origin) signed function row)
    (two : Turned (signature other) reordered.arena.Reachable (Heads reordered)
      (.initial reordered) resigned function column) :
    row = column ∧ ∀ id, origin.arena.Reachable function id →
      resigned.tree.arena.node? id = signed.tree.arena.node? id ∧
      resigned.span? id = signed.span? id := by
  rw [reachable] at two
  rcases one with ⟨before, after, left, ⟨retyped, known⟩, ⟨later, -⟩, turn⟩
  rcases two with ⟨start, final, right, ⟨earlier, found⟩, -, turned⟩
  have awaits := retyped.awaits constructed (known function List.mem_cons_self)
  have waits := earlier.awaits again (found function List.mem_cons_self)
  rw [reachable] at waits
  have begun := Link.linked_of_awaits awaits waits
    (fun id below =>
      (turned.node id below).trans ((node id below).1.trans (turn.node id below).symm))
    (fun id below =>
      (turned.span id below).trans ((node id below).2.trans (turn.span id below).symm))
    (earlier.result.trans retyped.result.symm) (earlier.loopDepth.trans retyped.loopDepth.symm)
  rcases matches_of_part agrees (by exact .refl) _ _ begun _ _ _ _ turn.ran turned.ran
    with ⟨same, linked⟩
  refine ⟨Prod.ext same (turn.same_reports turned linked.reports), ?_⟩
  intro id below
  have bound : id.index < after.size :=
    Nat.lt_of_lt_of_le (awaits.old id below) linked.trees.here.size
  have bounded : id.index < final.size :=
    Nat.lt_of_lt_of_le (waits.old id below) linked.trees.there.size
  rw [turn.keptNode id bound (.inl below), turn.keptSpan id bound (.inl below),
    turned.keptNode id bounded (.inl below), turned.keptSpan id bounded (.inl below)]
  constructor
  · apply linked.node_of_part below
    intro kind found
    rw [later.kind] at found
    exact closed_of_kind below found
  · have place := linked.trees.span id (.inl below)
    rw [Link.rename_part (by exact below)] at place
    exact place

end Turns

end Inference

end ModuleLang
