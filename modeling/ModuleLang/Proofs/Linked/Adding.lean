import ModuleLang.Proofs.Linked.Matching

/-!
Nodes that are added in linked states. The next node has corresponding numbers in both
trees, so what is put into a slot, and what a name is declared as, are the same node.
-/

namespace ModuleLang

namespace SpanTable

variable {table final : SpanTable} {node source target : NodeId} {span : Span} {result : Unit}

theorem ran_add (ran : Ran (add node span) table result final) :
    final = table.insert node span := by
  unfold add at ran
  rcases ran_bind.mp ran with ⟨_, _, got, ran⟩
  cases got
  split at ran
  · cases ran
  · cases ran
    rfl

theorem ran_copy (ran : Ran (copy source target) table result final) :
    ∃ span, table.span? source = some span ∧ final = table.insert target span := by
  unfold copy at ran
  rcases ran_bind.mp ran with ⟨_, _, got, ran⟩
  cases got
  split at ran
  · cases ran
  · rename_i span known
    exact ⟨span, known, ran_add ran⟩

theorem ran_move (ran : Ran (move source target) table result final) :
    ∃ span, table.span? source = some span ∧
      final = (table.erase source).insert target span := by
  unfold move at ran
  rcases ran_bind.mp ran with ⟨_, _, got, ran⟩
  cases got
  split at ran
  · cases ran
  · rename_i span known
    rcases ran_bind.mp ran with ⟨_, _, erased, ran⟩
    cases erased
    exact ⟨span, known, ran_add ran⟩

end SpanTable

namespace Inference

variable {value image : Type} {start final : InferenceState}

/-- An action that adds one node, with the span of another one. -/
def Grows (kind : NodeKind NodeId) (type : Option Ty) (source : NodeId)
    (action : Inference NodeId) : Prop :=
  ∀ start node final, Ran action start node final → node = ⟨start.size⟩ ∧
    ∃ span, start.span? source = some span ∧ final = start.grown kind type span

theorem grows_add (kind : NodeKind NodeId) (source : NodeId) :
    Grows kind (Arena.initialType kind) source (add kind source) := by
  intro start node final ran
  rcases ran_bind.mp ran with ⟨_, _, added, ran⟩
  cases added
  rcases ran_bind.mp ran with ⟨_, _, copied, ran⟩
  cases ran
  rcases ran_spans copied with ⟨_, inserted, rfl⟩
  rcases SpanTable.ran_copy inserted with ⟨span, known, rfl⟩
  exact ⟨rfl, span, known, rfl⟩

theorem ran_alloc_typed {kind : NodeKind NodeId} {type : Option Ty}
    {next : NodeId → Inference value}
    {result : value} (ran : Ran (do
      let node ← onTree (SourceTree.alloc kind)
      setType node type
      next node) start result final) :
    Ran (next ⟨start.size⟩) (start.withArena ⟨start.tree.arena.nodes.push ⟨kind, type⟩⟩) result
      final := by
  rcases ran_bind.mp ran with ⟨_, _, added, typing⟩
  cases added
  rcases ran_bind.mp typing with ⟨_, _, typed, rest⟩
  cases typed
  change Ran _ (start.withArena
    ((start.tree.arena.alloc kind).2.setType ⟨start.tree.arena.size⟩ type)) _ _ at rest
  rw [Arena.set_type_of_new] at rest
  exact rest

theorem grows_typed (kind : NodeKind NodeId) (type : Option Ty) (source : NodeId) :
    Grows kind type source (do
      let node ← onTree (SourceTree.alloc kind)
      setType node type
      onTree (SourceTree.onSpans (SpanTable.copy source node))
      return node) := by
  intro start node final ran
  rcases ran_bind.mp (ran_alloc_typed ran) with ⟨_, _, copied, done⟩
  cases done
  rcases ran_spans copied with ⟨_, inserted, rfl⟩
  rcases SpanTable.ran_copy inserted with ⟨span, known, rfl⟩
  exact ⟨rfl, span, known, rfl⟩

theorem grows_type_ref (type : Ty) (source : NodeId) :
    Grows (.typeRef type.layers.1.text type.layers.2) (some type) source (addTypeRef type source) :=
  grows_typed _ _ _

namespace Link.Linked

variable {link : Link} {source : NodeId} {kind : NodeKind NodeId} {one two : InferenceState}
  (linked : link.Linked one two) (slots : ∀ child ∈ kind.children, link.Own child)
  (type : Option Ty) (span : Span)

include linked slots

/-- Both put a node behind the others. Spans may have been taken from nodes of the part
before. -/
theorem placed {spans others : SpanTable}
    (same : ∀ id, link.Own id → others.span? (link.rename id) = spans.span? id)
    (placedHere : ∀ id, (spans.span? id).isSome → id.index < one.size)
    (placedThere : ∀ id, (others.span? id).isSome → id.index < two.size)
    (keptHere : ∀ id, ¬ link.Own id → spans.span? id = one.span? id)
    (keptThere : ∀ id, ¬ (link.part id ∨ link.there.size ≤ id.index) →
      others.span? id = two.span? id) :
    link.Linked
      { one with tree := ⟨⟨one.tree.arena.nodes.push ⟨kind, type⟩⟩,
        spans.insert ⟨one.size⟩ span⟩ }
      { two with tree := ⟨⟨two.tree.arena.nodes.push ⟨kind.map link.rename, type⟩⟩,
        others.insert ⟨two.size⟩ span⟩ } := by
  have trees := linked.trees
  have within : ∀ {table : SpanTable} {size : Nat},
      (∀ id, (table.span? id).isSome → id.index < size) →
      ∀ id, ((table.insert ⟨size⟩ span).span? id).isSome → id.index ≤ size := by
    intro table size less id found
    rw [SpanTable.span_insert] at found
    split at found
    · rename_i last
      exact Nat.le_of_eq (congrArg NodeId.index last).symm
    · exact Nat.le_of_lt (less id found)
  have others_kept : ∀ {table : SpanTable} {size : Nat} {id : NodeId}, id.index < size →
      (table.insert ⟨size⟩ span).span? id = table.span? id := by
    intro table size id old
    rw [SpanTable.span_insert, if_neg]
    rintro rfl
    exact Nat.lt_irrefl _ old
  apply linked.with_trees
  · apply trees.pushed type slots
    · intro id own
      have last : (⟨two.size⟩ : NodeId) = link.rename id ↔ (⟨one.size⟩ : NodeId) = id := by
        constructor
        · intro equal
          exact NodeId.ext ((trees.is_next own).mp (congrArg NodeId.index equal).symm).symm
        · intro equal
          exact NodeId.ext ((trees.is_next own).mpr (congrArg NodeId.index equal).symm).symm
      rw [SpanTable.span_insert, SpanTable.span_insert, same id own]
      simp only [last]
    · apply trees.here.pushed _ (within placedHere)
      intro id old apart
      rw [others_kept (Nat.lt_of_lt_of_le old trees.here.size)]
      exact keptHere id fun own => own.elim apart (Nat.not_le.mpr old)
    · apply trees.there.pushed _ (within placedThere)
      intro id old apart
      rw [others_kept (Nat.lt_of_lt_of_le old trees.there.size)]
      exact keptThere id fun own => own.elim apart (Nat.not_le.mpr old)
  · simp [Arena.size]

theorem grown : link.Linked (one.grown kind type span)
    (two.grown (kind.map link.rename) type span) :=
  linked.placed slots type span linked.trees.span linked.trees.here.placed
    linked.trees.there.placed (fun _ _ => rfl) fun _ _ => rfl

/-- Both add a node that takes the span of another one. -/
theorem moved (own : link.Own source) : link.Linked
    { one with tree := ⟨⟨one.tree.arena.nodes.push ⟨kind, type⟩⟩,
      (one.tree.spans.erase source).insert ⟨one.size⟩ span⟩ }
    { two with tree := ⟨⟨two.tree.arena.nodes.push ⟨kind.map link.rename, type⟩⟩,
      (two.tree.spans.erase (link.rename source)).insert ⟨two.size⟩ span⟩ } := by
  have less : ∀ {table : SpanTable} {erased : NodeId} {size : Nat},
      (∀ id, (table.span? id).isSome → id.index < size) →
      ∀ id, ((table.erase erased).span? id).isSome → id.index < size := by
    intro table erased size less id found
    rw [SpanTable.span_erase] at found
    split at found
    · cases found
    · exact less id found
  apply linked.placed slots
  · intro id inside
    have same : link.rename source = link.rename id ↔ source = id :=
      ⟨rename_injective own inside, congrArg link.rename⟩
    rw [SpanTable.span_erase, SpanTable.span_erase, linked.trees.span id inside]
    simp only [same]
  · exact less linked.trees.here.placed
  · exact less linked.trees.there.placed
  · intro id apart
    rw [SpanTable.span_erase, if_neg]
    rintro rfl
    exact apart own
  · intro id apart
    rw [SpanTable.span_erase, if_neg]
    rintro rfl
    exact apart (rename_own own)

end Link.Linked

section Steps

variable {link : Link} {source : NodeId}

theorem matches_grows {kind : NodeKind NodeId} {type : Option Ty} {left right : Inference NodeId}
    (own : link.Own source) (slots : ∀ child ∈ kind.children, link.Own child)
    (here : Grows kind type source left)
    (there : Grows (kind.map link.rename) type (link.rename source) right) :
    Matches link link.Twin left right := by
  intro one two linked node final other last ran also
  rcases here one node final ran with ⟨rfl, span, known, rfl⟩
  rcases there two other last also with ⟨rfl, place, placed, rfl⟩
  have same : two.span? (link.rename source) = one.span? source := linked.trees.span source own
  rw [known, placed] at same
  cases same
  rcases linked.trees.next with ⟨new, renamed⟩
  exact ⟨⟨new, renamed.symm⟩, linked.grown slots type span⟩

theorem matches_add {kind : NodeKind NodeId} (own : link.Own source)
    (slots : ∀ child ∈ kind.children, link.Own child) :
    Matches link link.Twin (add kind source) (add (kind.map link.rename) (link.rename source)) := by
  have there := grows_add (kind.map link.rename) (link.rename source)
  have initial : Arena.initialType (kind.map link.rename) = Arena.initialType kind := by
    cases kind <;> rfl
  rw [initial] at there
  exact matches_grows own slots (grows_add kind source) there

theorem matches_type_ref (own : link.Own source) (type : Ty) :
    Matches link link.Twin (addTypeRef type source) (addTypeRef type (link.rename source)) :=
  matches_grows own (List.forall_mem_nil _) (grows_type_ref type source)
    (grows_type_ref type (link.rename source))

theorem matches_literal (own : link.Own source) (literal : Literal) :
    Matches link link.Twin (add (.literal literal) source)
      (add (.literal literal) (link.rename source)) :=
  matches_add own (List.forall_mem_nil _)

theorem matches_default (own : link.Own source) (type : Ty) :
    Matches link link.Twin (addDefault type source) (addDefault type (link.rename source)) := by
  unfold addDefault
  split
  · exact matches_literal own _
  · apply (matches_type_ref own _).bind
    rintro written _ ⟨slot, rfl⟩
    refine matches_grows own ?_ (grows_typed (.construct written []) _ _) (grows_typed _ _ _)
    exact List.forall_mem_singleton.mpr slot
  · exact matches_literal own _

theorem matches_replace_child {parent old new : NodeId} (expected : String)
    (own : link.Own parent) (first : link.Own old) (second : link.Own new) :
    Matches link Eq (onTree (SourceTree.replaceChild parent old new expected))
      (onTree (SourceTree.replaceChild (link.rename parent) (link.rename old) (link.rename new)
        expected)) := by
  intro one two linked _ _ _ _ ran also
  rcases ran_replaced ran with ⟨before, after, known, done, rfl⟩
  rcases ran_replaced also with ⟨earlier, later, found, other, rfl⟩
  have slots := linked.trees.closed parent before own known
  have kinds : two.kind? (link.rename parent) = (one.kind? parent).map (NodeKind.map link.rename) :=
    linked.trees.kind own
  rw [known, found] at kinds
  cases kinds
  have renamed : (before.map link.rename).replaceChild? (link.rename old) (link.rename new) =
      (before.replaceChild? old new).map (NodeKind.map link.rename) :=
    NodeKind.replace_child_renamed fun child slot => Link.rename_injective (slots child slot) first
  rw [done, other] at renamed
  cases renamed
  have settled := NodeKind.children_of_replaced slots second done
  refine ⟨rfl, linked.with_trees (linked.trees.set_kind own settled) ?_⟩
  exact Nat.le_of_eq (Arena.size_setKind _ _ _).symm

theorem matches_insert_cast {parent child : NodeId} (own : link.Own parent)
    (slot : link.Own child) (target : Ty) :
    Matches link Eq (insertCast parent child target)
      (insertCast (link.rename parent) (link.rename child) target) := by
  apply (matches_type slot).next
  intro type
  apply (matches_type_ref slot target).bind
  rintro written _ ⟨first, rfl⟩
  have slots : ∀ operand ∈ (NodeKind.cast written child type).children, link.Own operand :=
    List.forall_mem_cons.mpr ⟨first, List.forall_mem_singleton.mpr slot⟩
  apply (matches_add slot slots).bind
  rintro node _ ⟨second, rfl⟩
  apply (matches_replace_child _ own slot second).next
  intro _
  exact matches_set_type second _

theorem ran_move_span {target node : NodeId} {result : Unit}
    (ran : Ran (onTree (SourceTree.onSpans (SpanTable.move target node))) start result final) :
    ∃ span, start.span? target = some span ∧ final = { start with
      tree := ⟨start.tree.arena, (start.tree.spans.erase target).insert node span⟩ } := by
  rcases ran_spans ran with ⟨_, moved, rfl⟩
  rcases SpanTable.ran_move moved with ⟨span, known, rfl⟩
  exact ⟨span, known, rfl⟩

/-- Both add a definition in the place of a name. -/
theorem matches_move {kind : NodeKind NodeId} (type : Option Ty)
    {related : value → image → Prop} {next : NodeId → Inference value}
    {after : NodeId → Inference image} (own : link.Own source)
    (slots : ∀ child ∈ kind.children, link.Own child)
    (rest : ∀ node, link.Own node → Matches link related (next node) (after (link.rename node))) :
    Matches link related
      (do
        let node ← onTree (SourceTree.alloc kind)
        setType node type
        onTree (SourceTree.onSpans (SpanTable.move source node))
        next node)
      (do
        let node ← onTree (SourceTree.alloc (kind.map link.rename))
        setType node type
        onTree (SourceTree.onSpans (SpanTable.move (link.rename source) node))
        after node) := by
  intro one two linked value final image last ran also
  rcases ran_bind.mp (ran_alloc_typed ran) with ⟨_, _, moved, ran⟩
  rcases ran_bind.mp (ran_alloc_typed also) with ⟨_, _, others, also⟩
  rcases ran_move_span moved with ⟨span, known, rfl⟩
  rcases ran_move_span others with ⟨place, placed, rfl⟩
  have same : two.span? (link.rename source) = one.span? source := linked.trees.span source own
  rw [show one.span? source = some span from known,
    show two.span? (link.rename source) = some place from placed] at same
  cases same
  rcases linked.trees.next with ⟨new, renamed⟩
  have matched := rest ⟨one.size⟩ new
  rw [renamed] at matched
  exact matched _ _ (linked.moved slots type span own) value final image last ran also

theorem matches_implicit_definition {statement target : NodeId} (own : link.Own statement)
    (slot : link.Own target) (name : String) (type : Option Ty) :
    Matches link Eq (implicitDefinition statement target name type)
      (implicitDefinition (link.rename statement) (link.rename target) name type) := by
  unfold implicitDefinition
  have spelled : ∀ found : Option Ty, Matches link
      (fun written other => other = written.map link.rename ∧
        ∀ node ∈ written.toList, link.Own node)
      (found.mapM fun type => addTypeRef type target)
      (found.mapM fun type => addTypeRef type (link.rename target)) := by
    intro found
    cases found with
    | none => exact .pure ⟨rfl, List.forall_mem_nil _⟩
    | some type =>
        rw [Option.mapM_some, Option.mapM_some, map_eq_pure_bind, map_eq_pure_bind]
        apply (matches_type_ref slot type).bind
        rintro node _ ⟨first, rfl⟩
        exact .pure ⟨rfl, List.forall_mem_singleton.mpr first⟩
  apply (spelled _).bind
  rintro written _ ⟨rfl, slots⟩
  apply matches_move _ slot (show ∀ child ∈ (NodeKind.definition written name).children,
    link.Own child from slots)
  intro definition first
  apply (matches_replace_child _ own slot first).next
  intro _
  exact matches_declare first name _ .inner

end Steps

end Inference

end ModuleLang
