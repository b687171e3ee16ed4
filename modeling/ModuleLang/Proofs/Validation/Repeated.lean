import Mathlib.Data.List.Count
import ModuleLang.Proofs.CheckedModule
import ModuleLang.Proofs.Typing.Walk

/-!
Exactly what is reported about the names of a module. The nodes that offend are
picked from the lists of the module by what stands in the tree: the names that
they share and what comes in front of them. Each of them is reported once, and
the reports about a list come in its order, which is that of the text. What the
inference of types changes in a tree is nothing that these checks look at.
-/

namespace ModuleLang

namespace Arena

variable (arena : Arena)

/-- Nodes of a list whose name occurs in it at least twice. -/
def sharing (nodes : List NodeId) : List NodeId :=
  nodes.filter fun node => 2 ≤ (nodes.map arena.name?).count (arena.name? node)

def parameters (function : NodeId) : List NodeId :=
  match arena.kind? function with
  | some (.function _ _ parameters _) => parameters
  | _ => []

/-- Path of a module definition or an import. -/
def path? (node : NodeId) : Option ModulePath :=
  match arena.kind? node with
  | some (.moduleDef path) | some (.useDef path) => some path
  | _ => none

/-- Last segment of the path in the first module definition. -/
def ownName? (modules : List NodeId) : Option String := do
  (← arena.path? (← modules.head?)).segments.getLast?

/-- Functions that are named as their module. -/
def namedAsModule (modules functions : List NodeId) : List NodeId :=
  functions.filter fun function =>
    (arena.ownName? modules).any fun own => arena.name? function == some own

/-- Imports behind one of the same path. -/
def importedAgain (imports : List NodeId) : List NodeId :=
  imports.filter fun node => (imports.takeWhile fun earlier => earlier != node).any
    fun earlier => arena.path? earlier == arena.path? node

end Arena

/-- Each report begins behind the end of the one in front of it. -/
def Diagnostic.InOrder (reports : List Diagnostic) : Prop :=
  reports.Pairwise fun first second =>
    first.span.start < second.span.start ∧ first.span.stop ≤ second.span.start

namespace SourceTree

variable {tree : SourceTree} {fileName code : String} {kind : NodeId → Option DiagnosticKind}

/-- A report says of a node what is to be said of it, at the span of the node. -/
structure ReportedAt (tree : SourceTree) (fileName code : String)
    (kind : NodeId → Option DiagnosticKind) (node : NodeId) (report : Diagnostic) : Prop where
  kind : kind node = some report.kind
  code : report.code = code
  span : tree.spans.span? node = some report.span
  fileName : report.fileName = fileName

theorem ReportedAt.unique {node : NodeId} {first second : Diagnostic}
    (left : tree.ReportedAt fileName code kind node first)
    (right : tree.ReportedAt fileName code kind node second) : first = second := by
  obtain ⟨kind, -, span, fileName⟩ := left
  obtain ⟨kind', -, span', fileName'⟩ := right
  cases first
  cases second
  simp_all

/-- The reports about nodes in source order are in order. -/
theorem in_order_of_reported {nodes : List NodeId} {reports : List Diagnostic}
    (rows : nodes.Pairwise tree.Before) (filled : ∀ node ∈ nodes, tree.Filled node)
    (reported : List.Forall₂ (tree.ReportedAt fileName code kind) nodes reports) :
    Diagnostic.InOrder reports := by
  induction reported with
  | nil => exact .nil
  | @cons node report nodes reports own others ih =>
      obtain ⟨first, rest⟩ := List.pairwise_cons.mp rows
      refine List.pairwise_cons.mpr ⟨fun later member => ?_,
        ih rest fun other inside => filled other (List.mem_cons_of_mem _ inside)⟩
      obtain ⟨other, inside, placed⟩ := partner_of_member others member
      have apart := first other inside _ _ own.span placed.span
      exact ⟨Position.lt_of_lt_of_le (filled node List.mem_cons_self _ own.span) apart, apart⟩

end SourceTree

/-- What is reported about the definitions and imports of a module. -/
structure ModuleReports (tree : SourceTree) (fileName : String) (root : NodeId)
    (modules imports functions : List NodeId) (missing extra clashes again : List Diagnostic) :
    Prop where
  /-- A missing definition is reported at the start of the module. -/
  undefined : modules = [] → ∃ span report, tree.spans.span? root = some span ∧
    missing = [report] ∧ report = ⟨.moduleMissing, .point span.start, fileName⟩ ∧
    report.code = "SEM1015"
  defined : modules ≠ [] → missing = []
  extra : List.Forall₂ (tree.ReportedAt fileName "SEM1016" fun _ => some .duplicateModule)
    modules.tail extra
  clashes : List.Forall₂ (tree.ReportedAt fileName "SEM1017" fun node =>
    (tree.arena.name? node).map .memberNamedAsModule)
    (tree.arena.namedAsModule modules functions) clashes
  again : List.Forall₂ (tree.ReportedAt fileName "SEM1023" fun node =>
    (tree.arena.path? node).map fun path => .duplicateImport path.text)
    (tree.arena.importedAgain imports) again

/-- What is reported about all names of a module. -/
structure NameReports (tree : SourceTree) (fileName : String) (root : NodeId)
    (modules imports functions : List NodeId)
    (parameters members missing extra clashes again : List Diagnostic) : Prop extends
    ModuleReports tree fileName root modules imports functions missing extra clashes again where
  parameters : List.Forall₂ (tree.ReportedAt fileName "SEM1013" fun node =>
    (tree.arena.name? node).map .duplicateParameter)
    (functions.flatMap fun function => tree.arena.sharing (tree.arena.parameters function))
    parameters
  members : List.Forall₂ (tree.ReportedAt fileName "SEM1014" fun node =>
    (tree.arena.name? node).map .duplicateMember) (tree.arena.sharing functions) members

namespace ModuleRoot

variable {limit : Position} {host : Host} {clean : Prop} {module : ModuleRoot} {code : String}
  {kind : NodeId → Option DiagnosticKind} {modules imports functions : List NodeId}
  {tree : SourceTree}

theorem yields_reported {node : NodeId} {said : DiagnosticKind}
    (known : (tree.spans.span? node).isSome) (means : kind node = some said)
    (coded : said.code = code) :
    Yields (module.finding node said) tree fun found final =>
      final = tree ∧ tree.ReportedAt module.fileName code kind node found := by
  obtain ⟨span, place⟩ := Option.isSome_iff_exists.mp known
  unfold finding
  rw [yields_bind, yields_get, SpanTable.report_of_span place, SourceTree.yields_of_except]
  exact ⟨_, rfl, rfl, means, coded, place, rfl⟩

theorem yields_each_reported {nodes : List NodeId} {say : NodeId → DiagnosticKind}
    (known : ∀ node ∈ nodes, (tree.spans.span? node).isSome)
    (means : ∀ node ∈ nodes, kind node = some (say node) ∧ (say node).code = code) :
    Yields (nodes.mapM fun node => module.finding node (say node)) tree fun found final =>
      final = tree ∧ List.Forall₂ (tree.ReportedAt module.fileName code kind) nodes found :=
  yields_mapM_each fun node member =>
    yields_reported (known node member) (means node member).1 (means node member).2

/-- The entries with repeated names are those of the nodes that share names. -/
theorem nodes_of_repeated {nodes : List NodeId} {entries : List (NodeId × String)}
    (all : List.Forall₂ (fun node entry => entry.1 = node ∧
      tree.arena.name? node = some entry.2) nodes entries) :
    (repeated entries).map Prod.fst = tree.arena.sharing nodes := by
  have names := names_of_entries all
  have first : entries.map Prod.fst = nodes := by
    clear names
    induction all with
    | nil => rfl
    | cons head _ ih => rw [List.map_cons, ih, head.1]
  unfold repeated Arena.sharing
  rw [names, ← first, List.filter_map]
  refine congrArg (List.map Prod.fst) (List.filter_congr fun entry member => ?_)
  obtain ⟨node, -, rfl, named⟩ := partner_of_member all member
  rw [Function.comp_apply, named, List.count_map_of_injective _ _ (Option.some_injective _)]
  exact decide_eq_decide.mpr Iff.rfl

/-- What is reported about names that nodes of a list share. -/
theorem yields_sharing {expected : String} {nodes : List NodeId} {make : String → DiagnosticKind}
    (names : ∀ node ∈ nodes, ∃ name, tree.arena.name? node = some name)
    (known : ∀ node ∈ nodes, (tree.spans.span? node).isSome)
    (coded : ∀ name, (make name).code = code) :
    Yields (do
      let entries ← named expected nodes
      (repeated entries).mapM fun entry => module.finding entry.1 (make entry.2)) tree
      fun found final => final = tree ∧ List.Forall₂ (tree.ReportedAt module.fileName code
        fun node => (tree.arena.name? node).map make) (tree.arena.sharing nodes) found := by
  rw [yields_bind]
  refine (yields_named names).weaken ?_
  rintro entries _ ⟨rfl, all⟩
  rw [← nodes_of_repeated all]
  simp only [List.forall₂_map_left_iff]
  refine yields_mapM_each fun entry member => ?_
  obtain ⟨node, inside, rfl, named⟩ := partner_of_member all (List.mem_filter.mp member).1
  exact yields_reported (known _ inside) (by rw [named]; rfl) (coded _)

section Woven

variable (woven : tree.Woven limit host clean module.node modules imports functions)

include woven

theorem yields_parameters_sharing : Yields module.parameterFindings tree fun found final =>
    final = tree ∧ List.Forall₂ (tree.ReportedAt module.fileName "SEM1013" fun node =>
      (tree.arena.name? node).map .duplicateParameter)
      (functions.flatMap fun function => tree.arena.sharing (tree.arena.parameters function))
      found := by
  have each : ∀ function ∈ functions, Yields (module.functionParameterFindings function) tree
      fun part final => final = tree ∧ List.Forall₂ (tree.ReportedAt module.fileName "SEM1013"
        fun node => (tree.arena.name? node).map .duplicateParameter)
        (tree.arena.sharing (tree.arena.parameters function)) part := by
    intro function member
    obtain ⟨result, name, parameters, block, found, has⟩ := woven.functionKinds function member
    have own : tree.arena.parameters function = parameters := by
      unfold Arena.parameters
      rw [found]
    rw [own]
    unfold functionParameterFindings
    rw [yields_bind, yields_kind, found]
    refine yields_sharing (fun node inside => ?_) (fun node inside => ?_) fun _ => rfl
    · obtain ⟨written, name, kind⟩ := has.parameters node inside
      exact ⟨name, by simp [Arena.name?, kind, NodeKind.name?]⟩
    · refine woven.reachable_spanned (.tail (woven.child_reachable
        (List.mem_append_right _ member)) (Arena.child_of_kind found ?_))
      simp [NodeKind.children, inside]
  refine (yields_in_functions woven each).weaken ?_
  rintro found final ⟨same, parts, rfl, met⟩
  refine ⟨same, List.rel_flatten (List.forall₂_map_left_iff.mpr met)⟩

theorem yields_members_sharing : Yields module.memberFindings tree fun found final =>
    final = tree ∧ List.Forall₂ (tree.ReportedAt module.fileName "SEM1014" fun node =>
      (tree.arena.name? node).map .duplicateMember) (tree.arena.sharing functions) found := by
  unfold memberFindings
  rw [yields_bind]
  refine (yields_functions woven).weaken ?_
  rintro _ _ ⟨rfl, rfl⟩
  refine yields_sharing (fun node member => ?_) (fun node member => ?_) fun _ => rfl
  · obtain ⟨result, name, parameters, block, found, -⟩ := woven.functionKinds node member
    exact ⟨name, by simp [Arena.name?, found, NodeKind.name?]⟩
  · exact woven.reachable_spanned (woven.child_reachable (List.mem_append_right _ member))

/-- The functions with the last segment of a path as their name. -/
theorem yields_clashes {first : NodeId} (others : List NodeId) {path : ModulePath}
    (found : tree.arena.path? first = some path) :
    Yields (module.clashes path functions) tree fun clashes final =>
      final = tree ∧ List.Forall₂ (tree.ReportedAt module.fileName "SEM1017" fun node =>
        (tree.arena.name? node).map .memberNamedAsModule)
        (tree.arena.namedAsModule (first :: others) functions) clashes := by
  have own : tree.arena.ownName? (first :: others) = path.segments.getLast? := by
    simp [Arena.ownName?, found]
  unfold clashes Arena.namedAsModule
  rw [own]
  split
  · rename_i none
    rw [none]
    refine ⟨rfl, ?_⟩
    simp
  · rename_i name last
    rw [last, yields_bind, yields_get]
    refine yields_each_reported (fun node member => ?_) fun node member => ?_
    · exact woven.reachable_spanned
        (woven.child_reachable (List.mem_append_right _ (List.mem_filter.mp member).1))
    · have named := beq_iff_eq.mp (List.mem_filter.mp member).2
      rw [named]
      exact ⟨rfl, rfl⟩

theorem yields_definition_reports : Yields (module.definitionFindings functions modules) tree
    fun found final => final = tree ∧ ∃ missing extra clashes, found = missing ++ extra ++ clashes ∧
      (modules = [] → ∃ span report, tree.spans.span? module.node = some span ∧
        missing = [report] ∧ report = ⟨.moduleMissing, .point span.start, module.fileName⟩ ∧
        report.code = "SEM1015") ∧
      (modules ≠ [] → missing = []) ∧
      List.Forall₂ (tree.ReportedAt module.fileName "SEM1016" fun _ => some .duplicateModule)
        modules.tail extra ∧
      List.Forall₂ (tree.ReportedAt module.fileName "SEM1017" fun node =>
        (tree.arena.name? node).map .memberNamedAsModule)
        (tree.arena.namedAsModule modules functions) clashes := by
  have kinds := woven.moduleKinds
  have inside : ∀ node ∈ modules, node ∈ modules ++ imports ++ functions := fun node member =>
    List.mem_append_left _ (List.mem_append_left _ member)
  unfold definitionFindings
  split
  · obtain ⟨span, place⟩ := Option.isSome_iff_exists.mp woven.spanned
    unfold missingModule
    simp only [yields_bind, yields_get]
    rw [SpanTable.span_of_found place, SourceTree.yields_of_except]
    refine ⟨span, rfl, rfl, [_], [], [], rfl, fun _ => ⟨span, _, place, rfl, rfl, rfl⟩, by simp, .nil,
      ?_⟩
    simp [Arena.namedAsModule, Arena.ownName?]
  · rename_i first others
    have later : Yields (others.mapM fun other => module.finding other .duplicateModule) tree
        fun found final => final = tree ∧ List.Forall₂ (tree.ReportedAt module.fileName "SEM1016"
          fun _ => some .duplicateModule) others found :=
      yields_each_reported (fun node member => woven.reachable_spanned
        (woven.child_reachable (inside node (List.mem_cons_of_mem _ member)))) fun _ _ => ⟨rfl, rfl⟩
    rw [yields_bind]
    refine later.weaken ?_
    rintro extra final ⟨same, repeated⟩
    rw [same]
    obtain ⟨path, found⟩ := kinds first List.mem_cons_self
    have named : tree.arena.path? first = some path := by simp [Arena.path?, found]
    rw [yields_bind, yields_kind, found]
    simp only
    rw [yields_bind]
    refine (yields_clashes woven others named).weaken ?_
    rintro clashes _ ⟨rfl, clashing⟩
    exact ⟨rfl, [], extra, clashes, rfl, nofun, fun _ => rfl, repeated, clashing⟩

/-- The imports behind some others, whose paths have been seen. -/
theorem yields_imports_again {seen : List ModulePath} {passed nodes : List NodeId}
    (whole : passed ++ nodes = imports) (distinct : imports.Nodup)
    (known : ∀ path, path ∈ seen ↔ ∃ earlier ∈ passed, tree.arena.path? earlier = some path) :
    Yields (module.importFindings seen nodes) tree fun found final => final = tree ∧
      List.Forall₂ (tree.ReportedAt module.fileName "SEM1023" fun node =>
        (tree.arena.path? node).map fun path => .duplicateImport path.text)
        (nodes.filter fun node => (imports.takeWhile fun earlier => earlier != node).any
          fun earlier => tree.arena.path? earlier == tree.arena.path? node) found := by
  induction nodes generalizing seen passed with
  | nil => exact ⟨rfl, .nil⟩
  | cons node nodes ih =>
      have member : node ∈ imports := by simp [← whole]
      obtain ⟨path, found⟩ := woven.importKinds node member
      have own : tree.arena.path? node = some path := by simp [Arena.path?, found]
      have front : (imports.takeWhile fun earlier => earlier != node) = passed := by
        rw [← whole, List.nodup_append] at distinct
        rw [← whole, List.takeWhile_append_of_pos]
        · simp
        · intro earlier inside
          exact bne_iff_ne.mpr (distinct.2.2 earlier inside node List.mem_cons_self)
      have repeated : (passed.any fun earlier => tree.arena.path? earlier ==
          tree.arena.path? node) = seen.contains path := by
        rw [Bool.eq_iff_iff, List.any_eq_true, List.contains_iff_mem, known, own]
        simp only [beq_iff_eq]
      have next : (passed ++ [node]) ++ nodes = imports := by simp [whole]
      unfold importFindings
      rw [yields_bind, yields_kind, found, List.filter_cons, front, repeated]
      simp only
      split
      · rename_i again
        have reports : Yields (module.finding node (.duplicateImport path.text)) tree
            fun found final => final = tree ∧ tree.ReportedAt module.fileName "SEM1023" (fun node =>
              (tree.arena.path? node).map fun path => .duplicateImport path.text) node found :=
          yields_reported (woven.reachable_spanned (woven.child_reachable (by simp [member])))
            (by rw [own]; rfl) rfl
        rw [yields_bind]
        refine reports.weaken ?_
        rintro one _ ⟨rfl, reported⟩
        rw [yields_bind]
        refine (ih next fun other => ?_).weaken ?_
        · rw [known other]
          simp only [List.contains_iff_mem, known path] at again
          obtain ⟨earlier, inside, same⟩ := again
          constructor
          · rintro ⟨before, held, is⟩
            exact ⟨before, List.mem_append_left _ held, is⟩
          · rintro ⟨before, held, is⟩
            obtain held | held := List.mem_append.mp held
            · exact ⟨before, held, is⟩
            · rw [List.mem_singleton.mp held, own] at is
              exact ⟨earlier, inside, same.trans is⟩
        · rintro more _ ⟨rfl, others⟩
          exact ⟨rfl, .cons reported others⟩
      · refine ih next fun other => ?_
        simp only [List.mem_cons, known other, List.mem_append, List.not_mem_nil, or_false]
        constructor
        · rintro (rfl | ⟨before, held, is⟩)
          · exact ⟨node, Or.inr rfl, own⟩
          · exact ⟨before, Or.inl held, is⟩
        · rintro ⟨before, held | rfl, is⟩
          · exact Or.inr ⟨before, held, is⟩
          · exact Or.inl (Option.some.inj (is.symm.trans own))

theorem yields_module_reports (distinct : imports.Nodup) :
    Yields module.moduleNameFindings tree fun found final => final = tree ∧
      ∃ missing extra clashes again, found = missing ++ extra ++ clashes ++ again ∧
        ModuleReports tree module.fileName module.node modules imports functions missing extra
          clashes again := by
  unfold moduleNameFindings
  rw [yields_bind, yields_kind, woven.found]
  simp only
  rw [yields_bind]
  refine (yields_definition_reports woven).weaken ?_
  rintro _ _ ⟨rfl, missing, extra, clashes, rfl, absent, defined, repeated, clashing⟩
  rw [yields_bind]
  refine (yields_imports_again woven (List.nil_append imports) distinct (by simp)).weaken ?_
  rintro again _ ⟨rfl, imported⟩
  exact ⟨rfl, missing, extra, clashes, again, rfl, absent, defined, repeated, clashing, imported⟩

/-- The three checks leave the tree as it is, and what they report is known. -/
theorem runs_name_reports (distinct : imports.Nodup) :
    ∃ parameters members missing extra clashes again,
      (Validator.duplicateParameters.run module).run tree = .ok parameters tree ∧
      (Validator.memberNames.run module).run tree = .ok members tree ∧
      (Validator.moduleName.run module).run tree =
        .ok (missing ++ extra ++ clashes ++ again) tree ∧
      NameReports tree module.fileName module.node modules imports functions parameters members
        missing extra clashes again := by
  obtain ⟨parameters, _, ran, rfl, shared⟩ := yields_iff.mp (yields_parameters_sharing woven)
  obtain ⟨members, _, also, rfl, repeated⟩ := yields_iff.mp (yields_members_sharing woven)
  obtain ⟨_, _, last, rfl, missing, extra, clashes, again, rfl, reports⟩ :=
    yields_iff.mp (yields_module_reports woven distinct)
  exact ⟨parameters, members, missing, extra, clashes, again, ran, also, last, reports, shared,
    repeated⟩

end Woven

end ModuleRoot

namespace SourceTree

variable {tree other : SourceTree} {fileName : String} {root : NodeId}
  {modules imports functions : List NodeId}

/-- Two trees that do not differ in what the names of a module are made of. -/
structure NamesAlike (tree other : SourceTree) (root : NodeId)
    (modules imports functions : List NodeId) : Prop where
  root : other.spans.span? root = tree.spans.span? root
  items : ∀ node ∈ modules ++ imports ++ functions,
    other.arena.kind? node = tree.arena.kind? node ∧
      other.spans.span? node = tree.spans.span? node
  parameters : ∀ function ∈ functions, ∀ node ∈ tree.arena.parameters function,
    other.arena.name? node = tree.arena.name? node ∧
      other.spans.span? node = tree.spans.span? node

theorem sharing_alike {nodes : List NodeId}
    (same : ∀ node ∈ nodes, other.arena.name? node = tree.arena.name? node) :
    other.arena.sharing nodes = tree.arena.sharing nodes := by
  unfold Arena.sharing
  rw [List.map_congr_left same]
  exact List.filter_congr fun node member => by rw [same node member]

theorem reported_alike {code : String} {before after : NodeId → Option DiagnosticKind}
    {nodes : List NodeId} {reports : List Diagnostic}
    (same : ∀ node ∈ nodes, before node = after node ∧
      other.spans.span? node = tree.spans.span? node)
    (reported : List.Forall₂ (other.ReportedAt fileName code before) nodes reports) :
    List.Forall₂ (tree.ReportedAt fileName code after) nodes reports := by
  induction reported with
  | nil => exact .nil
  | @cons node report nodes reports own _ ih =>
      obtain ⟨kind, span⟩ := same node List.mem_cons_self
      refine .cons ⟨kind ▸ own.kind, own.code, span ▸ own.span, own.fileName⟩ ?_
      exact ih fun node member => same node (List.mem_cons_of_mem _ member)

namespace NamesAlike

variable (alike : NamesAlike tree other root modules imports functions)

include alike

theorem name {function : NodeId} (member : function ∈ functions) :
    other.arena.name? function = tree.arena.name? function := by
  unfold Arena.name?
  rw [(alike.items function (List.mem_append_right _ member)).1]

theorem path {node : NodeId} (member : node ∈ modules ++ imports) :
    other.arena.path? node = tree.arena.path? node := by
  unfold Arena.path?
  rw [(alike.items node (List.mem_append_left _ member)).1]

theorem own_parameters {function : NodeId} (member : function ∈ functions) :
    other.arena.parameters function = tree.arena.parameters function := by
  unfold Arena.parameters
  rw [(alike.items function (List.mem_append_right _ member)).1]

theorem sharing_parameters :
    (functions.flatMap fun function => other.arena.sharing (other.arena.parameters function)) =
      functions.flatMap fun function => tree.arena.sharing (tree.arena.parameters function) := by
  refine List.flatMap_congr fun function member => ?_
  rw [alike.own_parameters member]
  exact sharing_alike fun node inside => (alike.parameters function member node inside).1

theorem named_as_module :
    other.arena.namedAsModule modules functions = tree.arena.namedAsModule modules functions := by
  have own : other.arena.ownName? modules = tree.arena.ownName? modules := by
    unfold Arena.ownName?
    cases modules with
    | nil => rfl
    | cons first others => simp [alike.path (show first ∈ first :: others ++ imports by simp)]
  unfold Arena.namedAsModule
  rw [own]
  exact List.filter_congr fun node member => by rw [alike.name member]

theorem imported_again : other.arena.importedAgain imports = tree.arena.importedAgain imports := by
  unfold Arena.importedAgain
  refine List.filter_congr fun node member => ?_
  rw [Bool.eq_iff_iff, List.any_eq_true, List.any_eq_true]
  refine exists_congr fun earlier => and_congr_right fun front => ?_
  rw [alike.path (List.mem_append_right _ member),
    alike.path (List.mem_append_right _ ((List.takeWhile_sublist _).subset front))]

/-- What is reported for one of the trees is what is to be reported for the other. -/
theorem name_reports {parameters members missing extra clashes again : List Diagnostic}
    (reports : NameReports other fileName root modules imports functions parameters members missing
      extra clashes again) :
    NameReports tree fileName root modules imports functions parameters members missing extra
      clashes again where
  undefined none := by
    rw [← alike.root]
    exact reports.undefined none
  defined := reports.defined
  extra := reported_alike (fun node member =>
    ⟨rfl, (alike.items node (by simp [List.mem_of_mem_tail member])).2⟩) reports.extra
  clashes := by
    rw [← alike.named_as_module]
    refine reported_alike (fun node member => ?_) reports.clashes
    have inside := (List.mem_filter.mp member).1
    exact ⟨by rw [alike.name inside], (alike.items node (List.mem_append_right _ inside)).2⟩
  again := by
    rw [← alike.imported_again]
    refine reported_alike (fun node member => ?_) reports.again
    have inside := (List.mem_filter.mp member).1
    exact ⟨by rw [alike.path (List.mem_append_right _ inside)],
      (alike.items node (by simp [inside])).2⟩
  parameters := by
    rw [← alike.sharing_parameters]
    refine reported_alike (fun node member => ?_) reports.parameters
    obtain ⟨function, held, inside⟩ := List.mem_flatMap.mp member
    rw [alike.own_parameters held] at inside
    obtain ⟨name, span⟩ := alike.parameters function held node (List.mem_filter.mp inside).1
    exact ⟨by rw [name], span⟩
  members := by
    rw [← sharing_alike fun node member => alike.name member]
    refine reported_alike (fun node member => ?_) reports.members
    have inside := (List.mem_filter.mp member).1
    exact ⟨by rw [alike.name inside], (alike.items node (List.mem_append_right _ inside)).2⟩

end NamesAlike

theorem reported_unique {code : String} {kind : NodeId → Option DiagnosticKind} {nodes : List NodeId}
    {first second : List Diagnostic}
    (left : List.Forall₂ (tree.ReportedAt fileName code kind) nodes first)
    (right : List.Forall₂ (tree.ReportedAt fileName code kind) nodes second) : first = second := by
  have unique : Relator.RightUnique (tree.ReportedAt fileName code kind) :=
    fun _ _ _ one two => one.unique two
  exact List.right_unique_forall₂' unique left right

/-- A tree leaves no choice of what is reported about it. -/
theorem reports_unique
    {parameters members missing extra clashes again parameters' members' missing' extra' clashes'
      again' : List Diagnostic}
    (left : NameReports tree fileName root modules imports functions parameters members missing
      extra clashes again)
    (right : NameReports tree fileName root modules imports functions parameters' members' missing'
      extra' clashes' again') :
    parameters' = parameters ∧ members' = members ∧
      missing' ++ extra' ++ clashes' ++ again' = missing ++ extra ++ clashes ++ again := by
  have missed : missing' = missing := by
    by_cases none : modules = []
    · obtain ⟨span, report, place, rfl, rfl, -⟩ := left.undefined none
      obtain ⟨span', report', place', rfl, rfl, -⟩ := right.undefined none
      rw [Option.some.inj (place'.symm.trans place)]
    · rw [left.defined none, right.defined none]
  rw [missed, reported_unique right.extra left.extra, reported_unique right.clashes left.clashes,
    reported_unique right.again left.again]
  exact ⟨reported_unique right.parameters left.parameters, reported_unique right.members left.members,
    rfl⟩

end SourceTree

namespace Inference

variable {limit : Position} {origin : SourceTree} {fileName : String} {host : Host} {root : NodeId}
  {modules imports functions : List NodeId} {signatures : List Signature}
  {signed final : InferenceState}

theorem Course.names_alike
    (course : Course limit origin fileName host root modules imports functions signatures signed
      final) : SourceTree.NamesAlike origin final.tree root modules imports functions where
  root := (course.inferred.above root (Or.inl rfl)).2
  items node member :=
    course.inferred.above node (Or.inr (Arena.child_of_kind course.prepared.found member))
  parameters := by
    intro function member node inside
    obtain ⟨result, name, parameters, block, kind⟩ :=
      function_kind course.prepared.constructed course.prepared.found member
    have own : node ∈ parameters := by
      unfold Arena.parameters at inside
      rw [kind] at inside
      exact inside
    have head : node ∈ allHeads origin functions := by
      refine List.mem_flatMap.mpr ⟨function, member, ?_⟩
      unfold Arena.heads
      rw [kind]
      exact List.mem_append_right _ own
    obtain ⟨written, named, before⟩ :=
      (course.prepared.constructed.has_function kind).parameters node own
    obtain ⟨other, now⟩ := course.prepared.parameter_kind course.advanced head before
    refine ⟨?_, (course.prepared.head_kept course.advanced head).2⟩
    change final.tree.arena.kind? node = _ at now
    simp [Arena.name?, before, now, NodeKind.name?]

end Inference

namespace SourceTree

section Constructed

variable {limit : Position} {tree : SourceTree} {root : NodeId}
  {modules imports functions : List NodeId} (constructed : tree.Constructed limit)
  (found : tree.arena.kind? root = some (.root modules imports functions))

include constructed found

theorem filled_of_item {node : NodeId} (member : node ∈ modules ++ imports ++ functions) :
    tree.Filled node := by
  have slot : ∃ category, (category, node) ∈ (NodeKind.root modules imports functions).slots ∧
      category ≠ .body := by
    simp only [List.mem_append] at member
    obtain (member | member) | member := member
    · exact ⟨.moduleDef, by simp [NodeKind.slots, member], by decide⟩
    · exact ⟨.useDef, by simp [NodeKind.slots, member], by decide⟩
    · exact ⟨.function, by simp [NodeKind.slots, member], by decide⟩
  obtain ⟨category, inside, solid⟩ := slot
  exact constructed.filled found _ inside solid

/-- The parameters that share names are in source order, and none is empty. -/
theorem parameters_in_order (rows : functions.Pairwise tree.Precedes) :
    let offending :=
      functions.flatMap fun function => tree.arena.sharing (tree.arena.parameters function)
    offending.Pairwise tree.Before ∧ ∀ node ∈ offending, tree.Filled node := by
  have each : ∀ function ∈ functions, ∃ result name block, tree.arena.kind? function =
      some (.function result name (tree.arena.parameters function) block) := by
    intro function member
    obtain ⟨result, name, parameters, block, kind⟩ :=
      Inference.function_kind constructed found member
    refine ⟨result, name, block, ?_⟩
    unfold Arena.parameters
    rw [kind]
  have child : ∀ function ∈ functions, ∀ node ∈ tree.arena.sharing (tree.arena.parameters function),
      tree.arena.Reachable function node := by
    intro function member node inside
    obtain ⟨result, name, block, kind⟩ := each function member
    refine .of_child (Arena.child_of_kind kind ?_)
    simp [NodeKind.children, (List.mem_filter.mp inside).1]
  have reached : ∀ function ∈ functions, tree.arena.Reachable root function :=
    fun function member => .of_child (Inference.function_is_child found member)
  constructor
  · rw [List.pairwise_flatMap]
    constructor
    · intro function member
      obtain ⟨result, name, block, kind⟩ := each function member
      have ordered := constructed.ordered kind rfl
      refine (ordered.sublist ?_).imp fun precedes => precedes.2
      exact List.filter_sublist.trans
        ((List.sublist_append_right _ _).trans (List.sublist_append_left _ _))
    · refine rows.imp_of_mem fun {first second} left right precedes => ?_
      intro node inside other also
      exact (constructed.hierarchy (Arena.kind_bound found)).before_below precedes.2
        (reached first left) (reached second right) (child first left node inside)
        (child second right other also)
  · intro node member
    obtain ⟨function, held, inside⟩ := List.mem_flatMap.mp member
    obtain ⟨result, name, block, kind⟩ := each function held
    exact constructed.filled kind (.parameter, node)
      (by simp [NodeKind.slots, (List.mem_filter.mp inside).1]) (fun equal => by cases equal)

end Constructed

end SourceTree

namespace ParsedModule

/-- The checks of names report exactly the nodes that offend, each once and in source order, and
leave the tree as it is. They report the same once types are inferred. -/
theorem of_text_repeated (text fileName : String) (host : Host) :
    ∃ parsed modules imports functions types inferred parameters members missing extra clashes again,
      ofText text fileName = .ok parsed ∧ parsed.fileName = fileName ∧
      parsed.tree.arena.kind? parsed.root = some (.root modules imports functions) ∧
      (SourceTree.inferTypes fileName host parsed.root).run parsed.tree = .ok types inferred ∧
      (∀ tree ∈ [parsed.tree, inferred],
        (Validator.duplicateParameters.run ⟨parsed.root, fileName⟩).run tree =
          .ok parameters tree ∧
        (Validator.memberNames.run ⟨parsed.root, fileName⟩).run tree = .ok members tree ∧
        (Validator.moduleName.run ⟨parsed.root, fileName⟩).run tree =
          .ok (missing ++ extra ++ clashes ++ again) tree) ∧
      NameReports parsed.tree fileName parsed.root modules imports functions parameters members
        missing extra clashes again ∧
      Diagnostic.InOrder parameters ∧ Diagnostic.InOrder members ∧
      Diagnostic.InOrder (missing ++ extra) ∧ Diagnostic.InOrder clashes ∧
      Diagnostic.InOrder again := by
  obtain ⟨parsed, wasParsed, proper, file⟩ := of_text_proper text fileName
  obtain ⟨modules, imports, functions, found⟩ := proper.root
  have constructed := proper.constructed
  obtain ⟨types, inferred, ran, signatures, signed, final, course, rfl, -⟩ :=
    yields_iff.mp (SourceTree.yields_infer_types_course constructed found fileName host)
  have items := constructed.forest.distinct_of_kind found
  rw [NodeKind.children] at items
  have distinct : imports.Nodup := (List.nodup_append.mp (List.nodup_append.mp items).1).2.1
  obtain ⟨parameters, members, missing, extra, clashes, again, first, second, third, reports⟩ :=
    ModuleRoot.runs_name_reports (constructed.woven host found : parsed.tree.Woven _ _ _
      (ModuleRoot.mk parsed.root fileName).node modules imports functions) distinct
  obtain ⟨_, _, _, _, _, _, first', second', third', others⟩ :=
    ModuleRoot.runs_name_reports (Inference.woven_of_inferred constructed found course.inferred :
      final.tree.Woven _ _ _ (ModuleRoot.mk parsed.root fileName).node modules imports functions)
      distinct
  obtain ⟨sameParameters, sameMembers, sameNames⟩ :=
    SourceTree.reports_unique reports (course.names_alike.name_reports others)
  rw [sameParameters] at first'
  rw [sameMembers] at second'
  rw [sameNames] at third'
  have rows := proper.rows found
  have inOrder : ∀ {code kind nodes offending found}, nodes.Pairwise parsed.tree.Precedes →
      (∀ node ∈ nodes, node ∈ modules ++ imports ++ functions) → offending.Sublist nodes →
      List.Forall₂ (parsed.tree.ReportedAt fileName code kind) offending found →
      Diagnostic.InOrder found := by
    intro code kind nodes offending reported ordered inside part met
    refine SourceTree.in_order_of_reported
      ((ordered.sublist part).imp fun precedes => precedes.2) (fun node member => ?_) met
    exact SourceTree.filled_of_item constructed found (inside node (part.subset member))
  obtain ⟨apart, filled⟩ := SourceTree.parameters_in_order constructed found rows.functions
  refine ⟨parsed, modules, imports, functions, types, final.tree, parameters, members, missing,
    extra, clashes, again, wasParsed, file, found, ran, ?_, reports, ?_, ?_, ?_, ?_, ?_⟩
  · intro tree member
    simp only [List.mem_cons, List.not_mem_nil, or_false] at member
    obtain rfl | rfl := member
    · exact ⟨first, second, third⟩
    · exact ⟨first', second', third'⟩
  · exact SourceTree.in_order_of_reported apart filled reports.parameters
  · exact inOrder rows.functions (fun node member => List.mem_append_right _ member)
      List.filter_sublist reports.members
  · have orderly := inOrder rows.modules (fun node member => by simp [member])
      (List.tail_sublist modules) reports.extra
    by_cases none : modules = []
    · obtain ⟨span, report, -, rfl, -, -⟩ := reports.undefined none
      have extra := reports.extra
      rw [none, List.tail_nil, List.forall₂_nil_left_iff] at extra
      rw [extra]
      exact List.pairwise_singleton _ _
    · rw [reports.defined none]
      exact orderly
  · exact inOrder rows.functions (fun node member => List.mem_append_right _ member)
      List.filter_sublist reports.clashes
  · exact inOrder rows.imports (fun node member => by simp [member]) List.filter_sublist
      reports.again

/-- A second definition behind an import that is repeated. -/
def scatteredText : String := "module a;\nuse x;\nuse x;\nmodule b;\n"

/-- What a run that went through has reported. -/
def reportsOf {state : Type} :
    EStateM.Result InternalError state (List Diagnostic) → Option (List Diagnostic)
  | .ok reports _ => some reports
  | .error .. => none

/-- The check goes rule by rule: a definition is reported in front of an import that stands
before it. -/
theorem definition_reported_first :
    ∃ parsed reports final, ofText scatteredText "m.plp" = .ok parsed ∧
      (Validator.moduleName.run ⟨parsed.root, "m.plp"⟩).run parsed.tree = .ok reports final ∧
      reports.map Diagnostic.code = ["SEM1016", "SEM1023"] ∧ ¬ Diagnostic.InOrder reports := by
  obtain ⟨parsed, wasParsed, -, -⟩ := of_text_proper scatteredText "m.plp"
  have facts : (ofText scatteredText "m.plp").toOption.any (fun parsed =>
      (reportsOf ((Validator.moduleName.run ⟨parsed.root, "m.plp"⟩).run parsed.tree)).any
        fun reports => reports.map Diagnostic.code == ["SEM1016", "SEM1023"] &&
          !decide (reports.Pairwise fun first second =>
            first.span.start < second.span.start ∧ first.span.stop ≤ second.span.start)) = true := by
    decide +kernel
  rw [wasParsed, Except.toOption, Option.any_some] at facts
  cases ran : (Validator.moduleName.run ⟨parsed.root, "m.plp"⟩).run parsed.tree with
  | ok reports final =>
      rw [ran, reportsOf, Option.any_some] at facts
      simp only [Bool.and_eq_true, beq_iff_eq, Bool.not_eq_true', decide_eq_false_iff_not] at facts
      exact ⟨parsed, reports, final, wasParsed, ran, facts⟩
  | error _ _ =>
      rw [ran] at facts
      cases facts

end ParsedModule

end ModuleLang
