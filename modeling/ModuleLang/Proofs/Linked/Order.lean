import ModuleLang.Proofs.Linked.Body
import ModuleLang.Proofs.Parsing.Declaration

/-!
The order of functions. A module whose functions stand in another order, with those of one
name in the order that they had, is inferred to the same functions, and the same is
reported about it.
-/

namespace ModuleLang

namespace SourceTree

/-- The tree with other lists in its root. -/
def withRoot (tree : SourceTree) (root : NodeId) (modules imports functions : List NodeId) :
    SourceTree :=
  { tree with arena := tree.arena.setKind root (.root modules imports functions) }

section Reordering

variable {limit : Position} {tree : SourceTree} {root : NodeId}
  {modules imports functions reordered : List NodeId}
  (found : tree.arena.kind? root = some (.root modules imports functions))

theorem node_with_root {id : NodeId} (other : id ≠ root) :
    (tree.withRoot root modules imports reordered).arena.node? id = tree.arena.node? id := by
  unfold withRoot
  rw [Arena.node_set_kind, if_neg other.symm]

theorem kind_with_root {id : NodeId} (other : id ≠ root) :
    (tree.withRoot root modules imports reordered).arena.kind? id = tree.arena.kind? id :=
  Arena.kind_of_node (node_with_root other)

include found

theorem root_with_root : (tree.withRoot root modules imports reordered).arena.kind? root =
    some (.root modules imports reordered) :=
  Arena.kind_set_kind (Arena.kind_bound found) _

variable (order : reordered.Perm functions)

include order

theorem children_with_root {id child : NodeId} :
    child ∈ (tree.withRoot root modules imports reordered).arena.children id ↔
      child ∈ tree.arena.children id := by
  by_cases same : id = root
  · rw [same, Arena.children_of_kind (root_with_root found), Arena.children_of_kind found]
    simp only [NodeKind.children, List.mem_append, order.mem_iff]
  · unfold Arena.children
    rw [kind_with_root same]

theorem reachable_with_root :
    (tree.withRoot root modules imports reordered).arena.Reachable = tree.arena.Reachable := by
  have same : (fun parent child : NodeId =>
      child ∈ (tree.withRoot root modules imports reordered).arena.children parent) =
      fun parent child => child ∈ tree.arena.children parent := by
    funext parent child
    exact propext (children_with_root found order)
  unfold Arena.Reachable
  rw [same]

theorem constructed_with_root (constructed : tree.Constructed limit) :
    (tree.withRoot root modules imports reordered).Constructed limit := by
  have forest := constructed.forest
  have below : ∀ {parent child},
      child ∈ (tree.withRoot root modules imports reordered).arena.children parent →
      child ∈ tree.arena.children parent := fun slot => (children_with_root found order).mp slot
  have known := @root_with_root tree root modules imports functions reordered found
  have slotOld : ∀ {id kind}, (tree.withRoot root modules imports reordered).arena.kind? id =
      some kind → ∀ slot ∈ kind.slots,
      ∃ before, tree.arena.kind? id = some before ∧ slot ∈ before.slots := by
    intro id kind held slot member
    by_cases same : id = root
    · rw [same, known] at held
      cases held
      rw [same]
      refine ⟨_, found, ?_⟩
      simp only [NodeKind.slots, List.mem_append, List.mem_map, order.mem_iff] at member ⊢
      exact member
    · rw [kind_with_root same] at held
      exact ⟨kind, held, member⟩
  refine ⟨?_, constructed.bounded, ⟨fun slot => forest.below (below slot), ?_, ?_⟩, ?_, ?_, ?_, ?_,
    ?_⟩
  · intro id
    refine (constructed.recorded id).trans ?_
    rw [withRoot, Arena.size_setKind]
  · intro parent
    by_cases same : parent = root
    · have distinct := forest.distinct_of_kind found
      rw [NodeKind.children] at distinct
      rw [same, Arena.children_of_kind known, NodeKind.children]
      exact ((List.Perm.append_left _ order).nodup_iff).mpr distinct
    · unfold Arena.children
      rw [kind_with_root same]
      exact forest.distinct parent
  · intro first second child left right
    exact forest.single (below left) (below right)
  · intro id kind held slot member
    rcases slotOld held slot member with ⟨own, stood, member⟩
    rcases constructed.admitted stood slot member with ⟨inner, before, admits⟩
    by_cases same : slot.2 = root
    · rw [same, found] at before
      cases before
      refine ⟨_, by rw [same]; exact known, ?_⟩
      exact admits
    · exact ⟨inner, (kind_with_root same).trans before, admits⟩
  · intro parent child slot
    exact constructed.covered (below slot)
  · intro id kind held notRoot
    by_cases same : id = root
    · rw [same, known] at held
      cases held
      cases notRoot
    · rw [kind_with_root same] at held
      exact constructed.ordered held notRoot
  · intro id kind held
    by_cases same : id = root
    · rw [same, known] at held
      cases held
      rfl
    · rw [kind_with_root same] at held
      exact constructed.unsourced held
  · intro id kind held slot member
    rcases slotOld held slot member with ⟨own, stood, member⟩
    exact constructed.filled stood slot member

end Reordering

end SourceTree

namespace Inference

variable {limit : Position} {origin : SourceTree} {environment : Environment} {root : NodeId}
  {modules imports functions : List NodeId} {fileName : String} {host : Host}

theorem ran_mapM {visit : NodeId → Inference PUnit} {items : List NodeId}
    {start final : InferenceState} {value : PUnit}
    (ran : Ran (items.forM visit) start value final) :
    ∃ values, Ran (items.mapM visit) start values final := by
  induction items generalizing start with
  | nil =>
      cases ran
      exact ⟨[], rfl⟩
  | cons head tail ih =>
      rcases ran_bind.mp ran with ⟨first, middle, heading, rest⟩
      rcases ih rest with ⟨values, more⟩
      refine ⟨first :: values, ?_⟩
      rw [List.mapM_cons]
      exact ran_bind.mpr ⟨first, middle, heading, ran_bind.mpr ⟨values, final, more, rfl⟩⟩

/-- A signature has the name of its function. -/
theorem name_of_signature {function : NodeId} {start final : InferenceState}
    {found : Signature} (ran : Ran (signature environment function) start found final) :
    start.tree.arena.name? function = some found.name := by
  rcases ran_bind.mp ran with ⟨kind, _, got, matched⟩
  cases got
  split at matched
  · rename_i result name parameters block known
    rcases ran_bind.mp matched with ⟨_, _, -, rest⟩
    rcases ran_bind.mp rest with ⟨_, _, -, done⟩
    cases done
    unfold Arena.name?
    rw [known]
    rfl
  · cases matched

/-- The way through a module: signatures in turn, and then bodies in turn. -/
structure Schedule (limit : Position) (origin : SourceTree) (fileName : String) (host : Host)
    (root : NodeId) (modules imports functions : List NodeId) (signatures : List Signature)
    (signed final : InferenceState) (heads : List (Signature × List Diagnostic))
    (bodies : List (Unit × List Diagnostic)) : Prop where
  prepared : Prepared limit origin host root modules imports functions (.initial origin) signed
  found : heads.map Prod.fst = signatures
  signing : Turns (signature ⟨fileName, host, []⟩) origin.arena.Reachable (Heads origin)
    (.initial origin) signed functions heads
  checking : Turns (Inference.function ⟨fileName, host, signatures⟩) origin.arena.Reachable
    (Bodies limit origin host functions signed) signed final functions bodies

theorem remains_of_retyped (constructed : origin.Constructed limit) {signed : InferenceState}
    (retyped : Retyped (.initial origin) signed) : Remains origin functions signed where
  size := Nat.le_of_eq retyped.size.symm
  closed _ _ id kind below known := by
    rw [retyped.kind] at known
    exact closed_of_kind below known
  placed id found := by
    rw [InferenceState.span?, retyped.spans] at found
    rw [retyped.size]
    exact (constructed.recorded id).mp found
  noted id member := by
    rw [retyped.duplicates] at member
    cases member

theorem yields_schedule (constructed : origin.Constructed limit)
    (found : origin.arena.kind? root = some (.root modules imports functions)) (fileName : String)
    (host : Host) :
    Yields (wholeModule fileName host root) (.initial origin) fun _ final =>
      ∃ signatures signed heads bodies, Schedule limit origin fileName host root modules imports
        functions signatures signed final heads bodies := by
  have kind : (InferenceState.initial origin).kind? root = some (.root modules imports functions) :=
    found
  have apart := functions_apart constructed found
  have bound : ∀ function ∈ functions, function.index < origin.arena.size :=
    fun _ member => function_bound constructed found member
  unfold wholeModule
  rw [yields_bind, yields_kind, kind]
  dsimp only
  rw [yields_bind]
  refine (yields_prepared constructed found fileName host).ran.weaken ?_
  rintro signatures signed ⟨⟨prepared, sound⟩, signing⟩
  rcases turns_of_signatures constructed bound apart signing with ⟨heads, same, headed⟩
  have checked : Yields (functions.forM (Inference.function ⟨fileName, host, signatures⟩)) signed
      fun _ final => Advanced limit origin host functions functions [] signed final :=
    yields_functions prepared sound
  refine checked.ran.weaken ?_
  rintro _ final ⟨-, checking⟩
  have begun : Bodies limit origin host functions signed functions signed := by
    refine ⟨remains_of_retyped constructed headed.kept.1, [], rfl, sound, ?_, ?_⟩
    · exact .nil _ prepared.work.sound
    · exact List.forall_mem_nil _
  rcases ran_mapM checking with ⟨values, mapped⟩
  have turns := turns_of_ran (fun head tail start value final bodies ran => ?_) apart
    (fun function member id below => ?_) begun mapped
  · rcases turns with ⟨bodies, -, turns⟩
    exact ⟨signatures, signed, heads, bodies, prepared, same, headed, turns⟩
  · rcases ended_function prepared bodies ran with ⟨next, ended⟩
    exact ⟨next, ended.toSpares, ended.reports⟩
  · rw [headed.kept.1.size]
    exact reachable_bounded constructed (bound function member) below

section Reordering

variable {reordered : List NodeId} {signatures others : List Signature}
  {signed final resigned last : InferenceState} {heads headed : List (Signature × List Diagnostic)}
  {bodies bodied : List (Unit × List Diagnostic)}

theorem name_of_turn {function : NodeId} {row : Signature × List Diagnostic}
    {keeps : InferenceState}
    (turned : Turned (signature environment) origin.arena.Reachable (Heads origin)
      (.initial origin) keeps function row) : origin.arena.name? function = some row.1.name := by
  rcases turned with ⟨before, after, left, ⟨retyped, -⟩, -, turn⟩
  rw [← name_of_signature turn.ran]
  unfold Arena.name?
  exact congrArg (Option.bind · NodeKind.name?) (retyped.kind function).symm

theorem named_of_rows (name : String) (rows : List (Signature × List Diagnostic)) :
    Signature.named name (rows.map Prod.fst) =
      (rows.filter fun row => row.1.name == name).map Prod.fst := by
  unfold Signature.named
  rw [List.filter_map]
  rfl

/-- What lies below a function is the same with another root. -/
theorem below_with_root (constructed : origin.Constructed limit)
    (found : origin.arena.kind? root = some (.root modules imports functions)) {function : NodeId}
    (member : function ∈ functions) (id : NodeId) (below : origin.arena.Reachable function id) :
    (origin.withRoot root modules imports reordered).arena.node? id = origin.arena.node? id ∧
      (origin.withRoot root modules imports reordered).spans.span? id = origin.spans.span? id := by
  refine ⟨SourceTree.node_with_root ?_, rfl⟩
  rintro rfl
  exact constructed.forest.parent_not_below (function_is_child found member) below

theorem schedules_alike (constructed : origin.Constructed limit)
    (found : origin.arena.kind? root = some (.root modules imports functions))
    (order : reordered.Perm functions)
    (names : ∀ name : String,
      reordered.filter (fun function => origin.arena.name? function == some name) =
        functions.filter fun function => origin.arena.name? function == some name)
    (one : Schedule limit origin fileName host root modules imports functions signatures signed
      final heads bodies)
    (two : Schedule limit (origin.withRoot root modules imports reordered) fileName host root
      modules imports reordered others resigned last headed bodied) :
    last.diagnostics.Perm final.diagnostics ∧ ∀ function ∈ functions, ∃ rename,
      SourceTree.Mirrored origin.arena.size function final.tree last.tree rename := by
  have again := SourceTree.constructed_with_root found order constructed
  have reachable := SourceTree.reachable_with_root found order
  have same := @below_with_root limit origin root modules imports functions reordered constructed
    found
  have signing := (List.forall₂_and_left _ _).mpr ⟨fun _ member => member, one.signing.each⟩
  have resigning := (List.forall₂_and_left _ _).mpr
    ⟨fun _ member => order.mem_iff.mp member, two.signing.each⟩
  have heading : ∀ function row column, (function ∈ functions ∧
      Turned (signature ⟨fileName, host, []⟩) origin.arena.Reachable (Heads origin)
        (.initial origin) signed function row) →
      (function ∈ functions ∧ Turned (signature ⟨fileName, host, []⟩)
        (origin.withRoot root modules imports reordered).arena.Reachable
        (Heads (origin.withRoot root modules imports reordered))
        (.initial (origin.withRoot root modules imports reordered)) resigned function column) →
      row = column ∧ ∀ id, origin.arena.Reachable function id →
        resigned.tree.arena.node? id = signed.tree.arena.node? id ∧
        resigned.span? id = signed.span? id := by
    rintro function row column ⟨member, turned⟩ ⟨-, turning⟩
    exact signatures_alike constructed again reachable (agree_refl _) (same member) turned turning
  have rows := fun function row column first second =>
    (heading function row column first second).1
  -- Functions of one name are the same candidates, in the same order.
  have agrees : Agree ⟨fileName, host, signatures⟩ ⟨fileName, host, others⟩ := by
    refine ⟨rfl, rfl, ?_⟩
    intro name
    have named : Signature.named name others = Signature.named name signatures := by
      rw [← one.found, ← two.found, named_of_rows, named_of_rows]
      apply congrArg (List.map Prod.fst)
      apply rows_selected rows _ _ (names name) signing resigning
      · rintro function row ⟨-, turned⟩
        rw [name_of_turn turned]
        rfl
      · rintro function row ⟨member, turned⟩
        have kind := Arena.kind_of_node (same member function .refl).1
        have known := name_of_turn turned
        unfold Arena.name? at known ⊢
        rw [← kind, known]
        rfl
    unfold candidates
    rw [named]
  have partner : ∀ function ∈ functions, ∀ id, origin.arena.Reachable function id →
      resigned.tree.arena.node? id = signed.tree.arena.node? id ∧
      resigned.span? id = signed.span? id := by
    intro function member
    rcases partner_of_member signing.flip member with ⟨row, -, turned⟩
    rcases partner_of_member resigning.flip (order.mem_iff.mpr member) with ⟨column, -, turning⟩
    exact (heading function row column turned turning).2
  have checking := (List.forall₂_and_left _ _).mpr ⟨fun _ member => member, one.checking.each⟩
  have rechecking := (List.forall₂_and_left _ _).mpr
    ⟨fun _ member => order.mem_iff.mp member, two.checking.each⟩
  have ending : ∀ function row column, (function ∈ functions ∧
      Turned (Inference.function ⟨fileName, host, signatures⟩) origin.arena.Reachable
        (Bodies limit origin host functions signed) signed final function row) →
      (function ∈ functions ∧ Turned (Inference.function ⟨fileName, host, others⟩)
        (origin.withRoot root modules imports reordered).arena.Reachable
        (Bodies limit (origin.withRoot root modules imports reordered) host reordered resigned)
        resigned last function column) →
      row = column ∧ ∃ rename, SourceTree.Mirrored origin.arena.size function final.tree last.tree
        rename := by
    rintro function row column ⟨member, turned⟩ ⟨-, turning⟩
    exact bodies_alike one.prepared two.prepared reachable agrees member
      (order.mem_iff.mpr member) (partner function member) turned turning
  constructor
  · have heads := rows_reordered rows order signing resigning
    have bodies := rows_reordered (fun function row column first second =>
      (ending function row column first second).1) order checking rechecking
    rw [two.checking.reports, one.checking.reports, two.signing.reports, one.signing.reports]
    exact ((heads.flatMap_right _).append_left _).append (bodies.flatMap_right _)
  · intro function member
    rcases partner_of_member checking.flip member with ⟨row, -, turned⟩
    rcases partner_of_member rechecking.flip (order.mem_iff.mpr member) with ⟨column, -, turning⟩
    exact (ending function row column turned turning).2

end Reordering

end Inference

namespace ParsedModule

/-- Functions are inferred independently. Where those of one name keep their order, every
function becomes the same in any order of functions, up to the numbers of the nodes that
were added, and the same is reported. -/
theorem infer_types_reordered (text fileName : String) (host : Host) :
    ∃ parsed modules imports functions, ofText text fileName = .ok parsed ∧
      parsed.tree.arena.kind? parsed.root = some (.root modules imports functions) ∧
      ∀ reordered : List NodeId, reordered.Perm functions →
        (∀ name : String,
          reordered.filter (fun function => parsed.tree.arena.name? function == some name) =
            functions.filter fun function => parsed.tree.arena.name? function == some name) →
        ∃ diagnostics tree others other,
          (SourceTree.inferTypes parsed.fileName host parsed.root).run parsed.tree =
            .ok diagnostics tree ∧
          (SourceTree.inferTypes parsed.fileName host parsed.root).run
              (parsed.tree.withRoot parsed.root modules imports reordered) = .ok others other ∧
          others.Perm diagnostics ∧
          ∀ function ∈ functions, ∃ rename,
            SourceTree.Mirrored parsed.tree.arena.size function tree other rename := by
  rcases of_text_proper text fileName with ⟨parsed, parsing, proper, -⟩
  rcases proper.root with ⟨modules, imports, functions, found⟩
  refine ⟨parsed, modules, imports, functions, parsing, found, ?_⟩
  intro reordered order names
  have constructed := proper.constructed
  have again := SourceTree.constructed_with_root found order constructed
  have known := @SourceTree.root_with_root parsed.tree parsed.root modules imports functions
    reordered found
  rcases yields_iff.mp (Inference.yields_schedule constructed found parsed.fileName host) with
    ⟨_, final, ran, signatures, signed, heads, bodies, one⟩
  rcases yields_iff.mp (Inference.yields_schedule again known parsed.fileName host) with
    ⟨_, last, also, others, resigned, headed, bodied, two⟩
  rcases Inference.schedules_alike constructed found order names one two with ⟨reports, mirrored⟩
  refine ⟨final.diagnostics, final.tree, last.diagnostics, last.tree, ?_, ?_, reports, mirrored⟩
  · change Inference.diagnose _ parsed.tree = _
    unfold Inference.diagnose
    rw [ran]
  · change Inference.diagnose _ (parsed.tree.withRoot parsed.root modules imports reordered) = _
    unfold Inference.diagnose
    rw [also]

/-- The first function calls the second one, and nodes are added to both. -/
def forwardText : String :=
  "module m; fn long f() \x7b return g(1) + 2l; \x7d fn int g(int a) \x7b x := a; return x; \x7d"

theorem infer_types_reordered_sample :
    ∃ parsed diagnostics tree others other, ofText forwardText "m.plp" = .ok parsed ∧
      parsed.tree.arena.kind? parsed.root = some (.root [⟨0⟩] [] [⟨8⟩, ⟨19⟩]) ∧
      (SourceTree.inferTypes parsed.fileName .empty parsed.root).run parsed.tree =
        .ok diagnostics tree ∧
      (SourceTree.inferTypes parsed.fileName .empty parsed.root).run
          (parsed.tree.withRoot parsed.root [⟨0⟩] [] [⟨19⟩, ⟨8⟩]) = .ok others other ∧
      others.Perm diagnostics ∧
      ∀ function ∈ [(⟨8⟩ : NodeId), ⟨19⟩], ∃ rename,
        SourceTree.Mirrored parsed.tree.arena.size function tree other rename := by
  rcases infer_types_reordered forwardText "m.plp" .empty with
    ⟨parsed, modules, imports, functions, parsing, found, same⟩
  have read : (ofText forwardText "m.plp").toOption.map (fun parsed =>
      (parsed.tree.arena.kind? parsed.root, parsed.tree.arena.name? ⟨8⟩,
        parsed.tree.arena.name? ⟨19⟩)) =
      some (some (.root [⟨0⟩] [] [⟨8⟩, ⟨19⟩]), some "f", some "g") := by
    decide +kernel
  rw [parsing] at read
  rcases Prod.mk.inj (Option.some.inj read) with ⟨root, names⟩
  rcases Prod.mk.inj names with ⟨first, second⟩
  rw [found] at root
  cases root
  have order : ∀ name : String,
      [(⟨19⟩ : NodeId), ⟨8⟩].filter (fun function =>
          parsed.tree.arena.name? function == some name) =
        [(⟨8⟩ : NodeId), ⟨19⟩].filter fun function =>
          parsed.tree.arena.name? function == some name := by
    intro name
    by_cases called : name = "f"
    · simp [first, second, called]
    · simp [List.filter_cons, first, second, Ne.symm called]
  rcases same [⟨19⟩, ⟨8⟩] (List.Perm.swap _ _ _) order with
    ⟨diagnostics, tree, others, other, ran, also, reports, mirrored⟩
  exact ⟨parsed, diagnostics, tree, others, other, parsing, found, ran, also, reports, mirrored⟩

end ParsedModule

end ModuleLang
