import ModuleLang.Proofs.Validation.Names
import ModuleLang.Validation

/-!
Ends of functions. The nodes that are listed below a body can be reached from it,
so whatever is reported about them has a span. The return that ends a function
without a result is added last; it asks nothing that such a function does not
give.
-/

namespace ModuleLang

namespace Position

theorem min_le_left (left right : Position) : min left right ≤ left := by
  simp only [min]
  split
  · exact le_refl left
  · exact (le_total left right).resolve_left ‹_›

theorem min_le_right (left right : Position) : min left right ≤ right := by
  simp only [min]
  split
  · assumption
  · exact le_refl right

theorem le_min {left right limit : Position} (first : limit ≤ left) (second : limit ≤ right) :
    limit ≤ min left right := by
  simp only [min]
  split
  · exact first
  · exact second

theorem le_max_right (left right : Position) : right ≤ max left right := by
  simp only [max]
  split
  · exact le_refl right
  · exact (le_total left right).resolve_left ‹_›

theorem max_le {left right limit : Position} (first : left ≤ limit) (second : right ≤ limit) :
    max left right ≤ limit := by
  simp only [max]
  split
  · exact second
  · exact first

end Position

namespace Span

/-- The second span lies in the first one. -/
def Covers (outer inner : Span) : Prop := outer.start ≤ inner.start ∧ inner.stop ≤ outer.stop

theorem covers_refl (span : Span) : span.Covers span := ⟨Position.le_refl _, Position.le_refl _⟩

theorem Covers.trans {first second third : Span} (outer : first.Covers second)
    (inner : second.Covers third) : first.Covers third :=
  ⟨Position.le_trans outer.1 inner.1, Position.le_trans inner.2 outer.2⟩

theorem covers_union_iff {span left right : Span} :
    span.Covers (left.union right) ↔ span.Covers left ∧ span.Covers right := by
  constructor
  · rintro ⟨lower, upper⟩
    exact ⟨⟨Position.le_trans lower (Position.min_le_left _ _),
        Position.le_trans (Position.le_max_left _ _) upper⟩,
      Position.le_trans lower (Position.min_le_right _ _),
        Position.le_trans (Position.le_max_right _ _) upper⟩
  · rintro ⟨⟨first, last⟩, first', last'⟩
    exact ⟨Position.le_min first first', Position.max_le last last'⟩

end Span

namespace SpanTable

variable {table : SpanTable} {nodes : List NodeId}

/-- A span covers all of some nodes, and lies in every span that does so. -/
structure Smallest (table : SpanTable) (nodes : List NodeId) (span : Span) : Prop where
  known : ∀ node ∈ nodes, ∃ place, table.span? node = some place ∧ span.Covers place
  least : ∀ other : Span, (∀ node ∈ nodes, ∀ place, table.span? node = some place →
    other.Covers place) → other.Covers span

theorem smallest_one {node : NodeId} {span : Span} (place : table.span? node = some span) :
    table.Smallest [node] span where
  known other member := by
    rw [List.mem_singleton.mp member]
    exact ⟨span, place, span.covers_refl⟩
  least _ each := each node List.mem_cons_self span place

theorem Smallest.union {node : NodeId} {covered span : Span} (smallest : table.Smallest nodes covered)
    (place : table.span? node = some span) :
    table.Smallest (nodes ++ [node]) (covered.union span) := by
  have both := Span.covers_union_iff.mp (covered.union span).covers_refl
  refine ⟨fun other member => ?_, fun other each => Span.covers_union_iff.mpr ⟨?_, ?_⟩⟩
  · obtain old | new := List.mem_append.mp member
    · obtain ⟨held, known, covers⟩ := smallest.known other old
      exact ⟨held, known, both.1.trans covers⟩
    · rw [List.mem_singleton.mp new]
      exact ⟨span, place, both.2⟩
  · exact smallest.least other fun node member => each node (List.mem_append_left _ member)
  · exact each node (List.mem_append_right _ List.mem_cons_self) span place

theorem smallest_fold {rest : List NodeId} {covered : Span} (smallest : table.Smallest nodes covered)
    (known : ∀ node ∈ rest, (table.span? node).isSome) :
    ∃ span, rest.foldlM (fun covered node => return covered.union (← table.span node)) covered =
      (.ok span : Except InternalError Span) ∧ table.Smallest (nodes ++ rest) span := by
  induction rest generalizing nodes covered with
  | nil =>
      rw [List.append_nil]
      exact ⟨covered, rfl, smallest⟩
  | cons node rest ih =>
      obtain ⟨span, place⟩ := Option.isSome_iff_exists.mp (known node List.mem_cons_self)
      rw [List.foldlM_cons, span_of_found place, ← List.singleton_append, ← List.append_assoc]
      exact ih (smallest.union place) fun other member => known other (List.mem_cons_of_mem _ member)

/-- The nodes of a range that have spans have a smallest one that covers them. -/
theorem smallest_range (some' : nodes ≠ []) (known : ∀ node ∈ nodes, (table.span? node).isSome) :
    ∃ span, table.range nodes = .ok span ∧ table.Smallest nodes span := by
  cases nodes with
  | nil => exact absurd rfl some'
  | cons first rest =>
      obtain ⟨span, place⟩ := Option.isSome_iff_exists.mp (known first List.mem_cons_self)
      unfold range
      simp only [span_of_found place]
      exact smallest_fold (smallest_one place) fun node member =>
        known node (List.mem_cons_of_mem _ member)

theorem Smallest.stop_le {span : Span} {limit : Position} (smallest : table.Smallest nodes span)
    (placed : ∀ {id span}, table.span? id = some span → span.stop ≤ limit) : span.stop ≤ limit :=
  (smallest.least ⟨.start, limit, Position.start_le limit⟩ fun _ _ _ place =>
    ⟨Position.start_le _, placed place⟩).2

end SpanTable

namespace Arena

variable {arena : Arena}

theorem reachable_of_unwind {budget : Nat} {stack : List NodeId} {id : NodeId}
    (member : id ∈ arena.unwind budget stack) : ∃ node ∈ stack, arena.Reachable node id := by
  induction budget generalizing stack with
  | zero => cases member
  | succ budget ih =>
      cases stack with
      | nil => cases member
      | cons first stack =>
          obtain rfl | inside := List.mem_cons.mp member
          · exact ⟨id, List.mem_cons_self, .refl⟩
          · obtain ⟨node, held, below⟩ := ih inside
            obtain child | waiting := List.mem_append.mp held
            · exact ⟨first, List.mem_cons_self, .below_child child below⟩
            · exact ⟨node, List.mem_cons_of_mem _ waiting, below⟩

theorem reachable_of_descendant {root id : NodeId} (member : id ∈ arena.descendants root) :
    arena.Reachable root id := by
  obtain ⟨node, held, below⟩ := reachable_of_unwind member
  rw [List.mem_singleton] at held
  rw [← held]
  exact below

theorem child_of_unreachable {body statement : NodeId}
    (member : statement ∈ arena.unreachable body) : statement ∈ arena.children body := by
  unfold unreachable at member
  split at member
  · rename_i found
    rw [children_of_kind found, NodeKind.children]
    exact (List.dropWhile_sublist _).subset (List.mem_of_mem_drop member)
  · cases member

end Arena

namespace ModuleRoot

variable {limit : Position} {host : Host} {clean : Prop} {module : ModuleRoot}
  {modules imports functions : List NodeId} {tree : SourceTree}

/-- The reports about one function say whether a path through it misses the
return, and say so of the function. -/
structure Flags (tree : SourceTree) (function : NodeId) (reports : List Diagnostic) : Prop where
  missing : ∀ {result name parameters block},
    tree.arena.kind? function = some (.function result name parameters block) →
    ((∃ found ∈ reports, found.kind = .notAllPathsReturn) ↔
      result.isSome = true ∧ tree.arena.bodyReturns block = false)
  place : ∀ found ∈ reports, found.kind = .notAllPathsReturn →
    tree.spans.span? function = some found.span

/-- What is reported about one body: nothing, or all statements behind its first jump
together. -/
inductive Cuts (module : ModuleRoot) (tree : SourceTree) (body : NodeId) : List Diagnostic → Prop
  | nothing (none : tree.arena.unreachable body = []) : Cuts module tree body []
  | behind {span} (some' : tree.arena.unreachable body ≠ [])
      (smallest : tree.spans.Smallest (tree.arena.unreachable body) span) :
      Cuts module tree body [⟨.unreachableCode, span, module.fileName⟩]

/-- What is reported about one function: first the missing return, then what its bodies
cut off. -/
structure Inspects (module : ModuleRoot) (tree : SourceTree) (function : NodeId)
    (reports : List Diagnostic) : Prop where
  parts : ∃ result name parameters block missing cuts,
    tree.arena.kind? function = some (.function result name parameters block) ∧
    reports = missing ++ cuts.flatten ∧
    (missing ≠ [] ↔ result.isSome = true ∧ tree.arena.bodyReturns block = false) ∧
    (∀ found ∈ missing, found.kind = .notAllPathsReturn ∧
      tree.spans.span? function = some found.span) ∧
    List.Forall₂ (Cuts module tree) (tree.arena.descendants block) cuts

/-- Whatever is reported about bodies is unreachable code. -/
theorem kind_of_cuts {bodies : List NodeId} {cuts : List (List Diagnostic)}
    (all : List.Forall₂ (Cuts module tree) bodies cuts) :
    ∀ found ∈ cuts.flatten, found.kind = .unreachableCode ∧
      ∃ nodes, tree.spans.Smallest nodes found.span := by
  intro found member
  obtain ⟨part, inside, held⟩ := List.mem_flatten.mp member
  obtain ⟨body, -, cut⟩ := partner_of_member all inside
  cases cut with
  | nothing => cases held
  | behind _ smallest =>
      rw [List.mem_singleton.mp held]
      exact ⟨rfl, _, smallest⟩

theorem Inspects.flags {function : NodeId} {reports : List Diagnostic}
    (inspects : Inspects module tree function reports) : Flags tree function reports := by
  obtain ⟨result, name, parameters, block, missing, cuts, found, rfl, missed, own, all⟩ :=
    inspects.parts
  have other : ∀ one ∈ cuts.flatten, one.kind ≠ .notAllPathsReturn := by
    intro one member same
    rw [(kind_of_cuts all one member).1] at same
    cases same
  refine ⟨fun again => ?_, fun one member kind => ?_⟩
  · cases found.symm.trans again
    rw [← missed]
    constructor
    · rintro ⟨one, member, kind⟩
      obtain inside | inside := List.mem_append.mp member
      · exact List.ne_nil_of_mem inside
      · exact absurd kind (other one inside)
    · intro some'
      obtain ⟨one, inside⟩ := List.exists_mem_of_ne_nil _ some'
      exact ⟨one, List.mem_append_left _ inside, (own one inside).1⟩
  · obtain inside | inside := List.mem_append.mp member
    · exact (own one inside).2
    · exact absurd kind (other one inside)

section Woven

variable (woven : tree.Woven limit host clean module.node modules imports functions)

include woven

theorem Inspects.stop_le {function : NodeId} {reports : List Diagnostic}
    (inspects : Inspects module tree function reports) :
    ∀ one ∈ reports, one.span.stop ≤ limit := by
  obtain ⟨_, _, _, _, missing, cuts, -, rfl, -, own, all⟩ := inspects.parts
  intro one member
  obtain inside | inside := List.mem_append.mp member
  · exact (woven.placed (own one inside).2).2
  · obtain ⟨-, nodes, smallest⟩ := kind_of_cuts all one inside
    exact smallest.stop_le fun place => (woven.placed place).2

theorem yields_unreachable {body : NodeId} (below : tree.arena.Reachable module.node body) :
    Yields (module.unreachableFindings body) tree fun found final =>
      final = tree ∧ Cuts module tree body found := by
  unfold unreachableFindings
  rw [yields_bind, yields_get]
  split
  · rename_i none
    exact ⟨rfl, .nothing none⟩
  · rename_i statements other
    have known : ∀ statement ∈ tree.arena.unreachable body,
        (tree.spans.span? statement).isSome := fun statement member =>
      woven.reachable_spanned (Relation.ReflTransGen.tail below (Arena.child_of_unreachable member))
    obtain ⟨span, ranged, smallest⟩ := SpanTable.smallest_range other known
    unfold SpanTable.reportRange
    rw [ranged, yields_bind, SourceTree.yields_of_except]
    exact ⟨_, rfl, rfl, .behind other smallest⟩

/-- What the check finds in one function. -/
theorem yields_function_returns {function : NodeId} (member : function ∈ functions) :
    Yields (module.functionReturnFindings function) tree fun found final =>
      final = tree ∧ Inspects module tree function found := by
  obtain ⟨result, name, parameters, block, found, -⟩ := woven.functionKinds function member
  have above := woven.child_reachable (show function ∈ modules ++ imports ++ functions by
    simp [member])
  have below : tree.arena.Reachable module.node block := by
    refine Relation.ReflTransGen.tail above ?_
    rw [Arena.children_of_kind found, NodeKind.children]
    simp
  -- The bodies come behind the missing return, whether that is reported or not.
  have bodies : ∀ missing : List Diagnostic,
      (missing ≠ [] ↔ result.isSome = true ∧ tree.arena.bodyReturns block = false) →
      (∀ one ∈ missing, one.kind = .notAllPathsReturn ∧
        tree.spans.span? function = some one.span) →
      Yields (do
        let bodies ← (tree.arena.descendants block).mapM module.unreachableFindings
        return missing ++ bodies.flatten) tree fun reports final =>
          final = tree ∧ Inspects module tree function reports := by
    intro missing missed own
    rw [yields_bind]
    refine (yields_mapM_each fun body inside =>
      yields_unreachable woven (below.trans (Arena.reachable_of_descendant inside))).weaken ?_
    rintro cuts _ ⟨rfl, all⟩
    exact ⟨rfl, ⟨_, _, _, _, missing, cuts, found, rfl, missed, own, all⟩⟩
  obtain ⟨span, place⟩ := Option.isSome_iff_exists.mp (woven.reachable_spanned above)
  unfold functionReturnFindings
  rw [yields_bind, yields_kind, found]
  simp only
  rw [yields_bind, yields_get]
  split
  · rename_i missed
    unfold finding
    rw [yields_bind, yields_bind, yields_get, SpanTable.report_of_span place,
      SourceTree.yields_of_except]
    refine ⟨_, rfl, ?_⟩
    rw [yields_bind, yields_pure]
    refine bodies _ (by simpa using missed) fun one inside => ?_
    rw [List.mem_singleton.mp inside]
    exact ⟨rfl, place⟩
  · rename_i passed
    rw [yields_bind, yields_pure]
    exact bodies _ (by simpa using passed) fun one inside => absurd inside List.not_mem_nil

theorem yields_returns : Yields module.returnFindings tree fun found final => final = tree ∧
    ∃ parts, found = parts.flatten ∧ List.Forall₂ (Inspects module tree) functions parts :=
  yields_in_functions woven fun _ => yields_function_returns woven

theorem finds_returns : Finds limit module.returnFindings tree := by
  refine finds_in_functions woven fun function member => ?_
  refine (yields_function_returns woven member).weaken ?_
  rintro found final ⟨same, inspects⟩
  exact ⟨same, inspects.stop_le woven⟩

end Woven

end ModuleRoot

end ModuleLang
