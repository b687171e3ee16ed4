import ModuleLang.Proofs.Typing.Module
import ModuleLang.Validation.Names

/-!
The tree that validation starts from. Its nodes are all there and have spans, the
functions of the module have the nodes that functions have, and the nodes below
obey their typing rules as long as no error was reported.
-/

namespace ModuleLang

namespace SourceTree

/-- The nodes of a region are there, refer to nodes of the region that have spans,
and obey their typing rules. -/
def Upheld (tree : SourceTree) (clean : Prop) (results : Option Ty → Prop)
    (region : NodeId → Prop) : Prop :=
  ∀ id, region id → ∃ kind, tree.arena.kind? id = some kind ∧
    (∀ child ∈ kind.children, region child ∧ (tree.spans.span? child).isSome) ∧
    (clean → kind.Obeys tree.arena.type? (tree.arena.type? id) results)

/-- The nodes that a function refers to. -/
structure HasFunction (tree : SourceTree) (result : Option NodeId) (parameters : List NodeId)
    (block : NodeId) : Prop where
  result : ∀ written ∈ result, ∃ name ranks,
    tree.arena.kind? written = some (.typeRef name ranks)
  parameters : ∀ parameter ∈ parameters, ∃ written name,
    tree.arena.kind? parameter = some (.parameter written name)
  block : ∃ statements, tree.arena.kind? block = some (.body statements)

/-- A module whose types are inferred. -/
structure Woven (limit : Position) (host : Host) (clean : Prop) (root : NodeId)
    (modules imports functions : List NodeId) (tree : SourceTree) : Prop where
  found : tree.arena.kind? root = some (.root modules imports functions)
  moduleKinds : ∀ node ∈ modules, ∃ path, tree.arena.kind? node = some (.moduleDef path)
  importKinds : ∀ node ∈ imports, ∃ path, tree.arena.kind? node = some (.useDef path)
  functionKinds : ∀ node ∈ functions, ∃ result name parameters block,
    tree.arena.kind? node = some (.function result name parameters block) ∧
    tree.HasFunction result parameters block
  placed : ∀ {id span}, tree.spans.span? id = some span →
    id.index < tree.arena.size ∧ span.stop ≤ limit
  spanned : (tree.spans.span? root).isSome
  whole : ∃ region : NodeId → Prop, region root ∧ tree.Upheld clean (fun _ => False) region
  returns : ∀ function ∈ functions, ∀ result name parameters block,
    tree.arena.kind? function = some (.function result name parameters block) →
    ∃ region : NodeId → Prop, region block ∧
      tree.Upheld clean (· = tree.arena.declared? host result) region ∧
      ∀ other ∈ functions, ∀ result name parameters block,
        tree.arena.kind? other = some (.function result name parameters block) →
        region block → other = function

namespace Upheld

variable {tree : SourceTree} {clean : Prop} {results : Option Ty → Prop}
  {region : NodeId → Prop} {root id : NodeId}

theorem reachable (upheld : tree.Upheld clean results region) (inside : region root)
    (below : tree.arena.Reachable root id) : region id := by
  induction below with
  | refl => exact inside
  | tail _ slot ih =>
      obtain ⟨kind, found, closed, -⟩ := upheld _ ih
      rw [Arena.children_of_kind found] at slot
      exact (closed _ slot).1

/-- Whatever lies below a node with a span has one. -/
theorem spanned (upheld : tree.Upheld clean results region) (inside : region root)
    (known : (tree.spans.span? root).isSome) (below : tree.arena.Reachable root id) :
    (tree.spans.span? id).isSome := by
  obtain same | ⟨parent, above, slot⟩ := Relation.ReflTransGen.cases_tail below
  · rw [same]
    exact known
  · obtain ⟨kind, found, closed, -⟩ := upheld _ (upheld.reachable inside above)
    rw [Arena.children_of_kind found] at slot
    exact (closed _ slot).2

end Upheld

namespace Woven

variable {limit : Position} {host : Host} {clean : Prop} {root id : NodeId}
  {modules imports functions : List NodeId} {tree : SourceTree}

theorem reachable_spanned
    (woven : Woven limit host clean root modules imports functions tree)
    (below : tree.arena.Reachable root id) : (tree.spans.span? id).isSome := by
  obtain ⟨region, inside, upheld⟩ := woven.whole
  exact upheld.spanned inside woven.spanned below

theorem child_reachable
    (woven : Woven limit host clean root modules imports functions tree)
    (member : id ∈ modules ++ imports ++ functions) : tree.arena.Reachable root id := by
  refine .of_child ?_
  exact Arena.child_of_kind woven.found member

/-- What holds without errors holds under what excludes them. -/
theorem imply {cleaner : Prop}
    (woven : Woven limit host clean root modules imports functions tree)
    (implies : cleaner → clean) : Woven limit host cleaner root modules imports functions tree := by
  have upheld : ∀ {results region}, tree.Upheld clean results region →
      tree.Upheld cleaner results region := by
    intro results region upheld id inside
    obtain ⟨kind, found, closed, obeys⟩ := upheld id inside
    exact ⟨kind, found, closed, fun met => obeys (implies met)⟩
  refine { woven with whole := ?_, returns := ?_ }
  · obtain ⟨region, inside, whole⟩ := woven.whole
    exact ⟨region, inside, upheld whole⟩
  · intro function member result name parameters block found
    obtain ⟨region, inside, whole, apart⟩ := woven.returns function member _ _ _ _ found
    exact ⟨region, inside, upheld whole, apart⟩

/-- Every node below the root obeys its rule, with the results of the functions
that it belongs to. -/
theorem obeys (woven : Woven limit host clean root modules imports functions tree) (met : clean)
    (below : tree.arena.Reachable root id) :
    tree.arena.Obeys (tree.arena.results host root id) id := by
  obtain ⟨region, inside, upheld⟩ := woven.whole
  obtain ⟨kind, found, -, alone⟩ := upheld id (upheld.reachable inside below)
  refine ⟨kind, found, NodeKind.obeys_of_each (alone met) ?_⟩
  rintro _ ⟨function, child, result, name, parameters, block, owner, path, rfl⟩
  have member : function ∈ functions := by
    rw [Arena.children_of_kind woven.found, NodeKind.children] at child
    obtain early | late := List.mem_append.mp child
    · obtain isModule | isImport := List.mem_append.mp early
      · obtain ⟨path, known⟩ := woven.moduleKinds function isModule
        rw [owner] at known
        cases known
      · obtain ⟨path, known⟩ := woven.importKinds function isImport
        rw [owner] at known
        cases known
    · exact late
  obtain ⟨own, contains, returns, -⟩ := woven.returns function member _ _ _ _ owner
  obtain ⟨other, same, -, obeys⟩ := returns id (returns.reachable contains path)
  rw [found] at same
  cases same
  exact obeys met

end Woven

end SourceTree

namespace Inference

variable {limit : Position} {origin : SourceTree} {host : Host} {root : NodeId}
  {modules imports functions : List NodeId} {final : InferenceState} {results : Option Ty → Prop}
  {region : Region}

theorem Settled.upheld (settled : Settled origin results region final) :
    final.tree.Upheld final.Clean results region := by
  intro id inside
  obtain ⟨kind, fine, closed⟩ := settled id inside
  exact ⟨kind, fine.found, fun child slot => ⟨closed child slot, fine.spanned child slot⟩, fine.obeys⟩

/-- A parsed node of a settled region has kept its kind up to its slots. -/
theorem Settled.parsed (settled : Settled origin results region final) {id : NodeId}
    {kind : NodeKind NodeId} (inside : region id) (found : origin.arena.kind? id = some kind) :
    ∃ after, final.kind? id = some after ∧
      kind.Alike (SourceTree.Stands origin final.tree) after := by
  obtain ⟨after, fine, -⟩ := settled id inside
  cases fine.traced with
  | parsed before alike _ =>
      rw [found] at before
      cases before
      exact ⟨after, fine.found, alike⟩
  | added new _ => exact absurd (Arena.kind_bound found) (Nat.not_lt.mpr new)

theorem has_function_of_inferred (constructed : origin.Constructed limit)
    (found : origin.arena.kind? root = some (.root modules imports functions))
    (inferred : Inferred limit origin host root modules imports functions final)
    {function : NodeId} (member : function ∈ functions) {result : Option NodeId} {name : String}
    {parameters : List NodeId} {block : NodeId}
    (kind : origin.arena.kind? function = some (.function result name parameters block)) :
    final.tree.HasFunction result parameters block ∧
      final.tree.arena.declared? host result = origin.arena.declared? host result := by
  obtain ⟨region, inside, settled, -⟩ := inferred.settled
  have child := function_is_child found member
  have rootKind := (inferred.above root (Or.inl rfl)).1.trans found
  have functionKind := (inferred.above function (Or.inr child)).1.trans kind
  have below : ∀ node ∈ (NodeKind.function result name parameters block).children, region node := by
    intro node slot
    have first : function ∈ final.tree.arena.children root := by
      rw [Arena.children_of_kind rootKind, ← Arena.children_of_kind found]
      exact child
    have second : node ∈ final.tree.arena.children function := Arena.child_of_kind functionKind slot
    exact settled.reachable inside (.below_child first (.of_child second))
  have parsed : ∀ category node, (category, node) ∈ (NodeKind.function result name parameters
      block).slots → ∃ before after, origin.arena.kind? node = some before ∧
      category.admits before = true ∧ final.kind? node = some after ∧
      before.Alike (SourceTree.Stands origin final.tree) after := by
    intro category node slot
    obtain ⟨before, known, admits⟩ := constructed.admitted kind _ slot
    obtain ⟨after, now, alike⟩ := settled.parsed (below node (NodeKind.slot_is_child slot)) known
    exact ⟨before, after, known, admits, now, alike⟩
  have typeRefs : ∀ written ∈ result, ∃ name ranks,
      origin.arena.kind? written = some (.typeRef name ranks) ∧
      final.tree.arena.kind? written = some (.typeRef name ranks) := by
    intro written isResult
    obtain ⟨before, after, known, admits, now, alike⟩ := parsed .type written (by
      cases isResult
      simp [NodeKind.slots])
    cases alike <;> first | exact ⟨_, _, known, now⟩ | cases admits
  refine ⟨⟨fun written isResult => ?_, fun parameter isParameter => ?_, ?_⟩, ?_⟩
  · obtain ⟨name, ranks, -, now⟩ := typeRefs written isResult
    exact ⟨name, ranks, now⟩
  · obtain ⟨before, after, -, admits, now, alike⟩ := parsed .parameter parameter (by
      simp [NodeKind.slots, isParameter])
    cases alike <;> first | exact ⟨_, _, now⟩ | cases admits
  · obtain ⟨before, after, -, admits, now, alike⟩ := parsed .body block (by simp [NodeKind.slots])
    cases alike <;> first | exact ⟨_, now⟩ | cases admits
  · cases result with
    | none => rfl
    | some written =>
        obtain ⟨name, ranks, before, now⟩ := typeRefs written rfl
        simp only [Arena.declared?, Arena.written?, before, now]

theorem woven_of_inferred (constructed : origin.Constructed limit)
    (found : origin.arena.kind? root = some (.root modules imports functions))
    (inferred : Inferred limit origin host root modules imports functions final) :
    SourceTree.Woven limit host final.Clean root modules imports functions final.tree := by
  have child : ∀ node ∈ modules ++ imports ++ functions, node ∈ origin.arena.children root := by
    intro node member
    exact Arena.child_of_kind found member
  have same : ∀ node ∈ modules ++ imports ++ functions,
      final.tree.arena.kind? node = origin.arena.kind? node :=
    fun node member => (inferred.above node (Or.inr (child node member))).1
  refine ⟨(inferred.above root (Or.inl rfl)).1.trans found, ?_, ?_, ?_, inferred.sound.placed, ?_, ?_,
    ?_⟩
  · intro node member
    obtain ⟨kind, known, admits⟩ := constructed.admitted found (.moduleDef, node)
      (by simp [NodeKind.slots, member])
    rw [same node (by simp [member]), known]
    cases kind with
    | moduleDef path => exact ⟨path, rfl⟩
    | _ => cases admits
  · intro node member
    obtain ⟨kind, known, admits⟩ := constructed.admitted found (.useDef, node)
      (by simp [NodeKind.slots, member])
    rw [same node (by simp [member]), known]
    cases kind with
    | useDef path => exact ⟨path, rfl⟩
    | _ => cases admits
  · intro node member
    obtain ⟨result, name, parameters, block, kind⟩ := function_kind constructed found member
    refine ⟨result, name, parameters, block, ?_,
      (has_function_of_inferred constructed found inferred member kind).1⟩
    rw [same node (by simp [member])]
    exact kind
  · have place := (inferred.above root (Or.inl rfl)).2
    rw [show final.tree.spans.span? root = _ from place]
    exact (constructed.recorded root).mpr (Arena.kind_bound found)
  · obtain ⟨region, inside, settled, -⟩ := inferred.settled
    exact ⟨region, inside, settled.upheld⟩
  · intro function member result name parameters block kind
    rw [same function (by simp [member])] at kind
    obtain ⟨region, inside, limits, settled⟩ := inferred.returns function member _ _ _ _ kind
    refine ⟨region, inside, ?_, ?_⟩
    · rw [(has_function_of_inferred constructed found inferred member kind).2]
      exact settled.upheld
    · intro other otherMember otherResult otherName otherParameters otherBlock otherKind contains
      rw [same other (by simp [otherMember])] at otherKind
      have isBlock : otherBlock ∈ origin.arena.children other := by
        simp [Arena.children_of_kind otherKind, NodeKind.children]
      have ownBlock : block ∈ origin.arena.children function := by
        simp [Arena.children_of_kind kind, NodeKind.children]
      have bound : otherBlock.index < origin.arena.size :=
        Nat.lt_trans (constructed.forest.below isBlock) (Arena.kind_bound otherKind)
      exact (constructed.forest.cousins_disjoint (child other (by simp [otherMember]))
        (child function (by simp [member])) isBlock ownBlock .refl (limits _ contains bound)).1

end Inference

namespace SourceTree.Constructed

variable {limit : Position} {tree : SourceTree} {root : NodeId}
  {modules imports functions : List NodeId}

theorem kind_of_reachable (constructed : tree.Constructed limit) {id below : NodeId}
    (bound : id.index < tree.arena.size) (path : tree.arena.Reachable id below) :
    ∃ kind, tree.arena.kind? below = some kind :=
  Arena.kind_exists (Nat.lt_of_le_of_lt (constructed.forest.index_le path) bound)

/-- Below every node of a parsed module there are nodes with spans. -/
theorem upheld (constructed : tree.Constructed limit) {id : NodeId}
    (bound : id.index < tree.arena.size) (results : Option Ty → Prop) :
    tree.Upheld False results (tree.arena.Reachable id) := by
  intro below path
  obtain ⟨kind, found⟩ := constructed.kind_of_reachable bound path
  refine ⟨kind, found, fun child slot => ?_, False.elim⟩
  have inside := Arena.child_of_kind found slot
  refine ⟨.tail path inside, (constructed.recorded child).mpr ?_⟩
  exact Nat.lt_trans (constructed.forest.below inside) (Arena.kind_bound found)

theorem has_function (constructed : tree.Constructed limit) {function : NodeId}
    {result : Option NodeId} {name : String} {parameters : List NodeId} {block : NodeId}
    (kind : tree.arena.kind? function = some (.function result name parameters block)) :
    tree.HasFunction result parameters block where
  result := by
    intro written isResult
    obtain ⟨found, known, admits⟩ := constructed.admitted kind (.type, written) (by
      cases isResult
      simp [NodeKind.slots])
    cases found <;> first | exact ⟨_, _, known⟩ | cases admits
  parameters := by
    intro parameter isParameter
    obtain ⟨found, known, admits⟩ := constructed.admitted kind (.parameter, parameter) (by
      simp [NodeKind.slots, isParameter])
    cases found <;> first | exact ⟨_, _, known⟩ | cases admits
  block := by
    obtain ⟨found, known, admits⟩ := constructed.admitted kind (.body, block) (by
      simp [NodeKind.slots])
    cases found <;> first | exact ⟨_, known⟩ | cases admits

/-- The checks may also start from a parsed module whose types nobody has inferred. -/
theorem woven (constructed : tree.Constructed limit) (host : Host)
    (found : tree.arena.kind? root = some (.root modules imports functions)) :
    tree.Woven limit host False root modules imports functions := by
  refine ⟨found, ?_, ?_, ?_, fun {id span} place => ?_, ?_, ?_, ?_⟩
  · intro node member
    obtain ⟨kind, known, admits⟩ := constructed.admitted found (.moduleDef, node)
      (by simp [NodeKind.slots, member])
    cases kind <;> first | exact ⟨_, known⟩ | cases admits
  · intro node member
    obtain ⟨kind, known, admits⟩ := constructed.admitted found (.useDef, node)
      (by simp [NodeKind.slots, member])
    cases kind <;> first | exact ⟨_, known⟩ | cases admits
  · intro node member
    obtain ⟨result, name, parameters, block, kind⟩ :=
      Inference.function_kind constructed found member
    exact ⟨result, name, parameters, block, kind, constructed.has_function kind⟩
  · refine ⟨(constructed.recorded id).mp ?_, constructed.bounded place⟩
    rw [place]
    rfl
  · exact (constructed.recorded root).mpr (Arena.kind_bound found)
  · exact ⟨_, .refl, constructed.upheld (Arena.kind_bound found) _⟩
  · intro function member result name parameters block kind
    have own : block ∈ tree.arena.children function :=
      Arena.child_of_kind kind (by simp [NodeKind.children])
    have bound := Nat.lt_trans (constructed.forest.below own) (Arena.kind_bound kind)
    refine ⟨_, .refl, constructed.upheld bound _, ?_⟩
    intro other otherMember _ _ _ otherBlock otherKind below
    have otherOwn : otherBlock ∈ tree.arena.children other :=
      Arena.child_of_kind otherKind (by simp [NodeKind.children])
    exact (constructed.forest.cousins_disjoint (Inference.function_is_child found otherMember)
      (Inference.function_is_child found member) otherOwn own .refl below).1

end SourceTree.Constructed

/-!
Checks that only look at the tree. Each of them succeeds on a module whose types
are inferred, whatever names are given twice in it, and reports within the text.
-/

/-- A check succeeds, leaves the tree as it is and reports nothing behind `limit`. -/
def Finds (limit : Position) (check : SourceTree.Action (List Diagnostic)) (tree : SourceTree) :
    Prop :=
  Yields check tree fun found final => final = tree ∧ ∀ one ∈ found, one.span.stop ≤ limit

namespace ModuleRoot

variable {limit : Position} {host : Host} {clean : Prop} {module : ModuleRoot}
  {modules imports functions : List NodeId} {tree : SourceTree}

theorem yields_kind (node : NodeId) (start : SourceTree)
    (holds : Option (NodeKind NodeId) → SourceTree → Prop) :
    Yields (kind? node) start holds ↔ holds (start.arena.kind? node) start :=
  Iff.rfl

theorem finds_nothing : Finds limit (pure []) tree :=
  ⟨rfl, nofun⟩

theorem finds_append {first second : SourceTree.Action (List Diagnostic)}
    (left : Finds limit first tree) (right : Finds limit second tree) :
    Finds limit (do
      let one ← first
      return one ++ (← second)) tree := by
  unfold Finds
  rw [yields_bind]
  refine left.weaken ?_
  rintro one _ ⟨rfl, early⟩
  rw [yields_bind]
  refine right.weaken ?_
  rintro two _ ⟨rfl, late⟩
  refine ⟨rfl, fun found member => ?_⟩
  obtain inside | inside := List.mem_append.mp member
  · exact early found inside
  · exact late found inside

theorem yields_finding {node : NodeId} (known : (tree.spans.span? node).isSome)
    (placed : ∀ {id span}, tree.spans.span? id = some span → span.stop ≤ limit)
    (kind : DiagnosticKind) :
    Yields (module.finding node kind) tree fun found final =>
      final = tree ∧ found.span.stop ≤ limit ∧ found.kind = kind := by
  obtain ⟨span, place⟩ := Option.isSome_iff_exists.mp known
  unfold finding
  rw [yields_bind, yields_get, SpanTable.report_of_span place, SourceTree.yields_of_except]
  exact ⟨_, rfl, rfl, placed place, rfl⟩

section Woven

variable (woven : tree.Woven limit host clean module.node modules imports functions)

include woven

theorem yields_finding_at {node : NodeId} (below : tree.arena.Reachable module.node node)
    (kind : DiagnosticKind) :
    Yields (module.finding node kind) tree fun found final =>
      final = tree ∧ found.span.stop ≤ limit ∧ found.kind = kind :=
  yields_finding (woven.reachable_spanned below) (fun place => (woven.placed place).2) kind

theorem finds_each {items : List NodeId} (below : ∀ item ∈ items, item ∈ modules ++ imports ++ functions)
    (kind : NodeId → DiagnosticKind) :
    Finds limit (items.mapM fun item => module.finding item (kind item)) tree := by
  refine yields_mapM_same fun item member => ?_
  refine (yields_finding_at woven (woven.child_reachable (below item member)) (kind item)).weaken ?_
  rintro one final ⟨same, early, -⟩
  exact ⟨same, early⟩

theorem yields_functions : Yields module.functions tree fun found final =>
    found = functions ∧ final = tree := by
  unfold ModuleRoot.functions
  rw [yields_bind, yields_kind, woven.found]
  exact ⟨rfl, rfl⟩

/-- What a check finds in the functions, one after the other. -/
theorem yields_in_functions {check : NodeId → Action (List Diagnostic)}
    {holds : NodeId → List Diagnostic → Prop}
    (each : ∀ function ∈ functions, Yields (check function) tree fun part final =>
      final = tree ∧ holds function part) :
    Yields (module.inFunctions check) tree fun found final => final = tree ∧
      ∃ parts, found = parts.flatten ∧ List.Forall₂ holds functions parts := by
  unfold inFunctions
  rw [yields_bind]
  refine (yields_functions woven).weaken ?_
  rintro _ _ ⟨rfl, rfl⟩
  rw [yields_bind]
  refine (yields_mapM_each each).weaken ?_
  rintro parts final ⟨rfl, met⟩
  exact ⟨rfl, parts, rfl, met⟩

theorem finds_in_functions {check : NodeId → Action (List Diagnostic)}
    (each : ∀ function ∈ functions, Finds limit (check function) tree) :
    Finds limit (module.inFunctions check) tree := by
  refine (yields_in_functions woven each).weaken ?_
  rintro _ final ⟨rfl, parts, rfl, met⟩
  refine ⟨rfl, fun one member => ?_⟩
  obtain ⟨part, inside, member⟩ := List.mem_flatten.mp member
  obtain ⟨function, -, early⟩ := partner_of_member met inside
  exact early one member

theorem finds_clashes (path : ModulePath) : Finds limit (module.clashes path functions) tree := by
  unfold clashes
  split
  · exact finds_nothing
  · rename_i own _
    unfold Finds
    rw [yields_bind, yields_get]
    refine finds_each woven (fun item member => ?_) fun _ => .memberNamedAsModule own
    exact List.mem_append_right _ (List.mem_filter.mp member).1

theorem finds_definitions : Finds limit (module.definitionFindings functions modules) tree := by
  have kinds := woven.moduleKinds
  have inside : ∀ node ∈ modules, node ∈ modules ++ imports ++ functions := fun node member =>
    List.mem_append_left _ (List.mem_append_left _ member)
  unfold definitionFindings
  split
  · obtain ⟨span, place⟩ := Option.isSome_iff_exists.mp woven.spanned
    unfold Finds missingModule
    simp only [yields_bind, yields_get]
    rw [SpanTable.span_of_found place, SourceTree.yields_of_except]
    refine ⟨span, rfl, rfl, fun found member => ?_⟩
    rw [List.mem_singleton] at member
    subst member
    exact Position.le_trans span.ordered (woven.placed place).2
  · rename_i first others
    unfold Finds
    rw [yields_bind]
    refine (finds_each woven (fun item member => inside item (List.mem_cons_of_mem _ member))
      fun _ => .duplicateModule).weaken ?_
    rintro extra _ ⟨rfl, early⟩
    obtain ⟨path, found⟩ := kinds first List.mem_cons_self
    rw [yields_bind, yields_kind, found]
    simp only
    rw [yields_bind]
    refine (finds_clashes woven path).weaken ?_
    rintro clashes _ ⟨rfl, late⟩
    refine ⟨rfl, fun one member => ?_⟩
    obtain member | member := List.mem_append.mp member
    · exact early one member
    · exact late one member

theorem finds_imports (seen : List ModulePath) (nodes : List NodeId)
    (subset : ∀ node ∈ nodes, node ∈ imports) :
    Finds limit (module.importFindings seen nodes) tree := by
  induction nodes generalizing seen with
  | nil => exact finds_nothing
  | cons node nodes ih =>
      have member := subset node List.mem_cons_self
      have rest : ∀ other ∈ nodes, other ∈ imports :=
        fun other inside => subset other (List.mem_cons_of_mem _ inside)
      obtain ⟨path, found⟩ := woven.importKinds node member
      have below := woven.child_reachable (show node ∈ modules ++ imports ++ functions by
        simp [member])
      unfold importFindings Finds
      rw [yields_bind, yields_kind, found]
      simp only
      split
      · rw [yields_bind]
        refine (yields_finding_at woven below _).weaken ?_
        rintro one _ ⟨rfl, early, -⟩
        rw [yields_bind]
        refine (ih seen rest).weaken ?_
        rintro more _ ⟨rfl, late⟩
        refine ⟨rfl, fun other member => ?_⟩
        obtain rfl | inside := List.mem_cons.mp member
        · exact early
        · exact late other inside
      · exact ih (path :: seen) rest

theorem finds_module_names : Finds limit module.moduleNameFindings tree := by
  unfold moduleNameFindings Finds
  rw [yields_bind, yields_kind, woven.found]
  exact finds_append (finds_definitions woven) (finds_imports woven [] imports fun _ => id)

omit woven in
theorem yields_named {expected : String} {nodes : List NodeId}
    (names : ∀ node ∈ nodes, ∃ name, tree.arena.name? node = some name) :
    Yields (named expected nodes) tree fun entries final => final = tree ∧
      List.Forall₂ (fun node entry => entry.1 = node ∧ tree.arena.name? node = some entry.2) nodes
        entries := by
  refine yields_mapM_each fun node member => ?_
  obtain ⟨name, found⟩ := names node member
  rw [yields_bind, yields_get, found]
  exact ⟨rfl, rfl, rfl⟩

/-- Every entry with a repeated name is reported. -/
theorem yields_repeated {entries : List (NodeId × String)} {kind : NodeId × String → DiagnosticKind}
    (below : ∀ entry ∈ entries, tree.arena.Reachable module.node entry.1) :
    Yields ((repeated entries).mapM fun entry => module.finding entry.1 (kind entry)) tree
      fun found final => final = tree ∧ List.Forall₂ (fun entry one => one.span.stop ≤ limit ∧
        one.kind = kind entry) (repeated entries) found :=
  yields_mapM_each fun entry member =>
    yields_finding_at woven (below entry (List.mem_filter.mp member).1) (kind entry)

/-- Without an error among the reports about a function, its parameters have
different names. -/
def Apart (tree : SourceTree) (function : NodeId) (reports : List Diagnostic) : Prop :=
  (∀ one ∈ reports, one.isError = false) → ∀ {result name parameters block},
    tree.arena.kind? function = some (.function result name parameters block) →
    (parameters.map tree.arena.name?).Nodup

omit woven in
theorem names_of_entries {nodes : List NodeId} {entries : List (NodeId × String)}
    (all : List.Forall₂ (fun node entry => entry.1 = node ∧
      tree.arena.name? node = some entry.2) nodes entries) :
    nodes.map tree.arena.name? = (entries.map Prod.snd).map some := by
  induction all with
  | nil => rfl
  | cons head _ ih => rw [List.map_cons, List.map_cons, List.map_cons, ih, head.2]

omit woven in
/-- Names of which none is repeated. -/
theorem nodup_of_not_repeated {nodes : List NodeId} {entries : List (NodeId × String)}
    (all : List.Forall₂ (fun node entry => entry.1 = node ∧
      tree.arena.name? node = some entry.2) nodes entries) (none : repeated entries = []) :
    (nodes.map tree.arena.name?).Nodup := by
  rw [names_of_entries all]
  refine List.Nodup.map (fun _ _ => Option.some.inj) (List.nodup_iff_count_le_one.mpr fun name => ?_)
  by_cases member : name ∈ entries.map Prod.snd
  · obtain ⟨entry, inside, rfl⟩ := List.mem_map.mp member
    have single := List.filter_eq_nil_iff.mp none entry inside
    simpa using single
  · rw [List.count_eq_zero_of_not_mem member]
    exact Nat.zero_le _

theorem yields_function_parameters {function : NodeId} (member : function ∈ functions) :
    Yields (module.functionParameterFindings function) tree fun found final => final = tree ∧
      (∀ one ∈ found, one.span.stop ≤ limit) ∧ Apart tree function found := by
  obtain ⟨result, name, parameters, block, found, has⟩ := woven.functionKinds function member
  have names : ∀ node ∈ parameters, ∃ name, tree.arena.name? node = some name := by
    intro node inside
    obtain ⟨written, name, kind⟩ := has.parameters node inside
    exact ⟨name, by simp [Arena.name?, kind, NodeKind.name?]⟩
  have above := woven.child_reachable (show function ∈ modules ++ imports ++ functions by
    simp [member])
  unfold functionParameterFindings
  rw [yields_bind, yields_kind, found]
  simp only
  rw [yields_bind]
  refine (yields_named names).weaken ?_
  rintro entries _ ⟨rfl, all⟩
  refine (yields_repeated woven fun entry inside => Relation.ReflTransGen.tail above ?_).weaken ?_
  · obtain ⟨node, held, same, -⟩ := partner_of_member all inside
    rw [Arena.children_of_kind found, NodeKind.children, same]
    simp [held]
  · rintro reports _ ⟨rfl, reported⟩
    refine ⟨rfl, fun one inside => ?_, fun silent => ?_⟩
    · obtain ⟨_, -, early, -⟩ := partner_of_member reported inside
      exact early
    · intro _ _ _ _ known
      cases found.symm.trans known
      refine nodup_of_not_repeated all ?_
      generalize repeated entries = again at reported ⊢
      cases reported with
      | nil => rfl
      | cons head _ =>
          have quiet := silent _ List.mem_cons_self
          rw [Diagnostic.isError, Diagnostic.level, head.2] at quiet
          cases quiet

theorem yields_parameters : Yields module.parameterFindings tree fun found final =>
    final = tree ∧ ∃ parts, found = parts.flatten ∧ List.Forall₂ (Apart tree) functions parts := by
  refine yields_in_functions woven fun function member => ?_
  refine (yields_function_parameters woven member).weaken ?_
  rintro found final ⟨same, -, apart⟩
  exact ⟨same, apart⟩

theorem finds_parameters : Finds limit module.parameterFindings tree := by
  refine finds_in_functions woven fun function member => ?_
  refine (yields_function_parameters woven member).weaken ?_
  rintro found final ⟨same, inside, -⟩
  exact ⟨same, inside⟩

theorem finds_members : Finds limit module.memberFindings tree := by
  have names : ∀ node ∈ functions, ∃ name, tree.arena.name? node = some name := by
    intro node member
    obtain ⟨result, name, parameters, block, found, -⟩ := woven.functionKinds node member
    exact ⟨name, by simp [Arena.name?, found, NodeKind.name?]⟩
  unfold memberFindings Finds
  rw [yields_bind]
  refine (yields_functions woven).weaken ?_
  rintro _ _ ⟨rfl, rfl⟩
  rw [yields_bind]
  refine (yields_named names).weaken ?_
  rintro entries _ ⟨rfl, all⟩
  refine (yields_repeated woven fun entry inside => ?_).weaken ?_
  · obtain ⟨node, held, same, -⟩ := partner_of_member all inside
    rw [same]
    exact woven.child_reachable (List.mem_append_right _ held)
  · rintro reports _ ⟨rfl, reported⟩
    refine ⟨rfl, fun one inside => ?_⟩
    obtain ⟨_, -, early, -⟩ := partner_of_member reported inside
    exact early

end Woven

end ModuleRoot

end ModuleLang
