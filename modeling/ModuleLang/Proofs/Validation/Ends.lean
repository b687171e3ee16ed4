import ModuleLang.Proofs.CheckedModule
import ModuleLang.Proofs.Typing.Contraction
import ModuleLang.Proofs.Typing.Places

/-!
Paths before and after inference. Where two arenas agree, statement by statement,
on what decides where a path goes on, they have the same paths, and the check for
returns gives the same answer. Inference keeps this agreement: what it puts in
the place of a definition decides nothing.
-/

namespace ModuleLang

namespace NodeKind

/-- Two kinds of node between which a path does not differ, where `related` nodes
stand for each other. -/
inductive Steers (related : NodeId → NodeId → Prop) : NodeKind NodeId → NodeKind NodeId → Prop
  | body {statements others} (all : List.Forall₂ related statements others) :
      Steers related (.body statements) (.body others)
  | condition {predicate thenBody elseBody other thenOther elseOther}
      (first : related thenBody thenOther) (second : Option.Rel related elseBody elseOther) :
      Steers related (.condition predicate thenBody elseBody) (.condition other thenOther elseOther)
  | loop {predicate block other blockOther} (only : related block blockOther) :
      Steers related (.loop predicate block) (.loop other blockOther)
  | returnFrom {value other} : Steers related (.returnFrom value) (.returnFrom other)
  | breakLoop : Steers related .breakLoop .breakLoop
  | continueLoop : Steers related .continueLoop .continueLoop
  | plain {kind other : NodeKind NodeId} (first : kind.isControl = false)
      (second : other.isControl = false) : Steers related kind other

/-- The agreement is symmetric. -/
theorem Steers.swap {related : NodeId → NodeId → Prop} {kind other : NodeKind NodeId}
    (steers : kind.Steers related other) : other.Steers (flip related) kind := by
  cases steers with
  | body all =>
      refine .body (List.Forall₂.flip ?_)
      exact all
  | condition first second =>
      refine .condition first ?_
      cases second with
      | none => exact .none
      | some matched => exact .some matched
  | loop only => exact .loop only
  | returnFrom => exact .returnFrom
  | breakLoop => exact .breakLoop
  | continueLoop => exact .continueLoop
  | plain first second => exact .plain second first

end NodeKind

namespace Arena

variable {first second : Arena} {related : NodeId → NodeId → Prop}

/-- Related nodes exist in both arenas and steer a path alike. -/
def Mirrors (first second : Arena) (related : NodeId → NodeId → Prop) : Prop :=
  ∀ {node other}, related node other → ∃ kind image, first.kind? node = some kind ∧
    second.kind? other = some image ∧ kind.Steers related image

theorem Mirrors.image {node other : NodeId} {kind : NodeKind NodeId}
    (mirrors : first.Mirrors second related) (same : related node other)
    (found : first.kind? node = some kind) :
    ∃ image, second.kind? other = some image ∧ kind.Steers related image := by
  obtain ⟨held, image, known, seen, steers⟩ := mirrors same
  cases found.symm.trans known
  exact ⟨image, seen, steers⟩

theorem Mirrors.swap (mirrors : first.Mirrors second related) :
    second.Mirrors first (flip related) := by
  intro node other same
  obtain ⟨kind, image, known, seen, steers⟩ := mirrors same
  exact ⟨image, kind, seen, known, steers.swap⟩

section Related

theorem related_of_append {earlier later others : List NodeId} {statement : NodeId}
    (all : List.Forall₂ related (earlier ++ statement :: later) others) :
    ∃ front image back, others = front ++ image :: back ∧
      List.Forall₂ related earlier front ∧ related statement image := by
  induction earlier generalizing others with
  | nil =>
      cases all with
      | cons same rest => exact ⟨[], _, _, rfl, .nil, same⟩
  | cons passed earlier ih =>
      cases all with
      | cons same rest =>
          obtain ⟨front, image, back, rfl, before, found⟩ := ih rest
          exact ⟨_ :: front, image, back, rfl, .cons same before, found⟩

theorem any_of_related {statements others : List NodeId} {holds holdsOther : NodeId → Bool}
    (all : List.Forall₂ related statements others)
    (each : ∀ statement other, related statement other → holdsOther other = holds statement) :
    others.any holdsOther = statements.any holds := by
  induction all with
  | nil => rfl
  | cons same _ ih => rw [List.any_cons, List.any_cons, each _ _ same, ih]

end Related

section Plain

variable {arena : Arena} {depth : Nat} {node : NodeId} {kind : NodeKind NodeId}

theorem returns_within_plain (found : arena.kind? node = some kind)
    (simple : kind.isControl = false) : arena.returnsWithin depth node = false := by
  rw [returnsWithin, found]
  cases kind with
  | body => cases simple
  | _ => rfl

theorem statement_returns_plain (found : arena.kind? node = some kind)
    (simple : kind.isControl = false) : arena.statementReturns depth node = false := by
  cases depth with
  | zero => rfl
  | succ depth =>
      rw [statement_returns_succ, found]
      cases kind with
      | body | condition | returnFrom => cases simple
      | _ => rfl

end Plain

/-- The paths of one arena are paths of the other one. -/
theorem Runs.mirrored {node other : NodeId} {outcome : Outcome} (runs : first.Runs node outcome)
    (mirrors : first.Mirrors second related) (same : related node other) :
    second.Runs other outcome := by
  induction runs generalizing other with
  | body found _ ih =>
      obtain ⟨image, seen, steers⟩ := mirrors.image same found
      cases steers with
      | body all =>
          refine .body seen fun statement member => ?_
          obtain ⟨passed, inside, same⟩ := partner_of_member all member
          exact ih passed inside same
      | plain simple _ => cases simple
  | left found _ _ leaves ih lastIh =>
      obtain ⟨image, seen, steers⟩ := mirrors.image same found
      cases steers with
      | body all =>
          obtain ⟨front, last, back, rfl, before, same⟩ := related_of_append all
          refine .left seen (fun statement member => ?_) (lastIh same) leaves
          obtain ⟨passed, inside, same⟩ := partner_of_member before member
          exact ih passed inside same
      | plain simple _ => cases simple
  | thenBody found _ ih =>
      obtain ⟨image, seen, steers⟩ := mirrors.image same found
      cases steers with
      | condition one _ => exact .thenBody seen (ih one)
      | plain simple _ => cases simple
  | elseBody found _ ih =>
      obtain ⟨image, seen, steers⟩ := mirrors.image same found
      cases steers with
      | condition _ two =>
          cases two with
          | some matched => exact .elseBody seen (ih matched)
      | plain simple _ => cases simple
  | skipped found =>
      obtain ⟨image, seen, steers⟩ := mirrors.image same found
      cases steers with
      | condition _ two =>
          cases two with
          | none => exact .skipped seen
      | plain simple _ => cases simple
  | loopEnds found =>
      obtain ⟨image, seen, steers⟩ := mirrors.image same found
      cases steers with
      | loop _ => exact .loopEnds seen
      | plain simple _ => cases simple
  | loopAgain found _ goes _ ih restIh =>
      obtain ⟨image, seen, steers⟩ := mirrors.image same found
      cases steers with
      | loop only => exact .loopAgain seen (ih only) goes (restIh same)
      | plain simple _ => cases simple
  | loopBroken found _ ih =>
      obtain ⟨image, seen, steers⟩ := mirrors.image same found
      cases steers with
      | loop only => exact .loopBroken seen (ih only)
      | plain simple _ => cases simple
  | loopReturned found _ ih =>
      obtain ⟨image, seen, steers⟩ := mirrors.image same found
      cases steers with
      | loop only => exact .loopReturned seen (ih only)
      | plain simple _ => cases simple
  | returned found =>
      obtain ⟨image, seen, steers⟩ := mirrors.image same found
      cases steers with
      | returnFrom => exact .returned seen
      | plain simple _ => cases simple
  | broke found =>
      obtain ⟨image, seen, steers⟩ := mirrors.image same found
      cases steers with
      | breakLoop => exact .broke seen
      | plain simple _ => cases simple
  | continued found =>
      obtain ⟨image, seen, steers⟩ := mirrors.image same found
      cases steers with
      | continueLoop => exact .continued seen
      | plain simple _ => cases simple
  | plain found simple =>
      obtain ⟨image, seen, steers⟩ := mirrors.image same found
      cases steers with
      | plain _ other => exact .plain seen other
      | _ => cases simple

/-- Related nodes have the same paths. -/
theorem runs_iff_mirrored {node other : NodeId} {outcome : Outcome}
    (mirrors : first.Mirrors second related) (same : related node other) :
    second.Runs other outcome ↔ first.Runs node outcome :=
  ⟨fun runs => runs.mirrored mirrors.swap same, fun runs => runs.mirrored mirrors same⟩

theorem returns_within_mirrored {depth : Nat} {node other : NodeId}
    (mirrors : first.Mirrors second related)
    (each : ∀ {statement image}, related statement image →
      second.statementReturns depth image = first.statementReturns depth statement)
    (same : related node other) :
    second.returnsWithin depth other = first.returnsWithin depth node := by
  obtain ⟨kind, image, known, seen, steers⟩ := mirrors same
  cases steers with
  | body all =>
      rw [returns_within_body known, returns_within_body seen]
      exact any_of_related all fun _ _ => each
  | plain one two => rw [returns_within_plain known one, returns_within_plain seen two]
  | _ => simp only [returnsWithin, known, seen]

/-- The check for returns gives the same answer in both. -/
theorem statement_returns_mirrored {depth : Nat} {node other : NodeId}
    (mirrors : first.Mirrors second related) (same : related node other) :
    second.statementReturns depth other = first.statementReturns depth node := by
  induction depth generalizing node other with
  | zero => rfl
  | succ depth ih =>
      have blocks := fun {node other} (same : related node other) =>
        returns_within_mirrored mirrors ih same
      obtain ⟨kind, image, known, seen, steers⟩ := mirrors same
      cases steers with
      | body all =>
          rw [statement_returns_succ, statement_returns_succ, known, seen]
          exact blocks same
      | condition one two =>
          rw [statement_returns_succ, statement_returns_succ, known, seen]
          cases two with
          | none => rfl
          | some matched =>
              dsimp only
              rw [blocks one, blocks matched]
      | plain one two => rw [statement_returns_plain known one, statement_returns_plain seen two]
      | _ => simp only [statement_returns_succ, known, seen]

end Arena

namespace Inference

variable {limit : Position} {origin : SourceTree} {nodes : List NodeId} {old now : NodeId}

/-- What a path meets after inference for a parsed statement: the statement, or an
assignment for a definition. -/
def Stood (origin : SourceTree) (nodes : List NodeId) (final : SourceTree)
    (old now : NodeId) : Prop :=
  Below origin nodes old ∧ (now = old ∨
    (∃ type name, origin.arena.kind? old = some (.definition type name)) ∧
    ∃ operator target value, final.arena.kind? now = some (.assign operator target value))

theorem stood_same {final : SourceTree} (inside : Below origin nodes old) :
    Stood origin nodes final old old :=
  ⟨inside, Or.inl rfl⟩

theorem stood_of_stands {final : SourceTree} (inside : Below origin nodes old)
    (kept : Kept origin old now) (stands : SourceTree.Stands origin final .statement old now) :
    Stood origin nodes final old now := by
  refine ⟨inside, ?_⟩
  obtain same | ⟨-, replaces⟩ := stands
  · exact Or.inl same
  · refine kept.imp id fun was => ⟨was, ?_⟩
    cases replaces with
    | default found => exact ⟨_, _, _, found⟩

/-- A statement that inference went through steers a path as the parsed one. -/
theorem steers_of_alike {final : SourceTree} {kind after : NodeKind NodeId}
    (alike : kind.Alike (SourceTree.Stands origin final) after)
    (below : ∀ child ∈ kind.children, Below origin nodes child)
    (places : ∀ statements others, kind = .body statements → after = .body others →
      List.Forall₂ (Kept origin) statements others) :
    kind.Steers (Stood origin nodes final) after := by
  cases alike with
  | body all =>
      refine .body (List.forall₂_iff_get.mpr ⟨all.length_eq, fun index first second => ?_⟩)
      have kept := places _ _ rfl rfl
      exact stood_of_stands (below _ (List.get_mem _ _)) (kept.get first second)
        (all.get first second)
  | condition first second third =>
      refine .condition ?_ ?_
      · rw [SourceTree.same_of_stands_body second]
        exact stood_same (below _ (by simp [NodeKind.children]))
      · cases third with
        | none => exact .none
        | some stands =>
            rw [SourceTree.same_of_stands_body stands]
            exact .some (stood_same (below _ (by simp [NodeKind.children])))
  | loop first second =>
      refine .loop ?_
      rw [SourceTree.same_of_stands_body second]
      exact stood_same (below _ (by simp [NodeKind.children]))
  | returnFrom => exact .returnFrom
  | breakLoop => exact .breakLoop
  | continueLoop => exact .continueLoop
  | _ => exact .plain rfl rfl

/-- The functions have the paths that they were parsed with. -/
theorem Course.mirrors {fileName : String} {host : Host} {root : NodeId}
    {modules imports functions : List NodeId} {signatures : List Signature}
    {signed final : InferenceState}
    (course : Course limit origin fileName host root modules imports functions signatures signed
      final) :
    origin.arena.Mirrors final.tree.arena
      (Stood origin (allBlocks origin functions) final.tree) := by
  have constructed := course.prepared.constructed
  rintro node other ⟨inside, rfl | ⟨⟨type, name, known⟩, operator, target, value, seen⟩⟩
  · obtain ⟨kind, known⟩ := Arena.kind_exists (blocks_bounded constructed inside)
    have old := Arena.kind_bound known
    obtain ⟨after, seen⟩ := Arena.kind_exists (Nat.lt_of_lt_of_le old course.inferred.sound.size)
    refine ⟨kind, after, known, seen, ?_⟩
    cases course.inferred.traced constructed seen with
    | added new _ => exact absurd old (Nat.not_lt.mpr new)
    | parsed was alike _ =>
        cases known.symm.trans was
        refine steers_of_alike alike (fun child slot => ?_) ?_
        · obtain ⟨block, member, below⟩ := inside
          refine ⟨block, member, Relation.ReflTransGen.tail below ?_⟩
          exact Arena.child_of_kind known slot
        · rintro statements others rfl rfl
          obtain ⟨found, held, places⟩ := course.bodies_kept other statements inside known
          cases held.symm.trans seen
          exact places
  · exact ⟨_, _, known, seen, .plain rfl rfl⟩

end Inference

end ModuleLang

/-!
Ends of functions in checked modules. The reports about missing returns are given
for exactly the functions with a path through their parsed body that comes to its
end, as long as no jump stands outside a loop; a function without a result gets a
return at its end. So no path comes to the end of a function of a module without
errors.
-/

namespace ModuleLang

theorem DiagnosticKind.not_all_paths_iff (kind : DiagnosticKind) :
    kind = .notAllPathsReturn ↔ kind.code = "SEM1018" := by
  cases kind <;> simp [code]

/-- The reports about one function tell whether a path through its body comes to
the end without a return, and are given at the function. -/
structure FlagsPaths (tree : SourceTree) (function : NodeId) (reports : List Diagnostic) :
    Prop where
  missing : ∀ {result name parameters block},
    tree.arena.kind? function = some (.function result name parameters block) →
    ((∃ found ∈ reports, found.code = "SEM1018") ↔
      result.isSome = true ∧ tree.arena.Runs block .finished)
  place : ∀ found ∈ reports, found.code = "SEM1018" →
    tree.spans.span? function = some found.span

/-- What is known of the ends of functions once a module is checked. -/
structure EndsChecked (parsed : ParsedModule) (functions : List NodeId)
    (reports findings : List Diagnostic) (checked : CheckedModule) : Prop where
  jumps : (∃ found ∈ reports, found.code = "SEM1022") ↔
    ∃ function ∈ functions, parsed.tree.arena.Strays function
  flagged : (∀ found ∈ reports, found.code ≠ "SEM1022") → ∃ parts, findings = parts.flatten ∧
    List.Forall₂ (FlagsPaths parsed.tree) functions parts
  completed : ∀ function ∈ functions, checked.tree.Closed function
  closed : checked.hasErrors = false → ∀ function ∈ functions, ∀ {result name parameters block},
    checked.tree.arena.kind? function = some (.function result name parameters block) →
    ¬ checked.tree.arena.Runs block .finished

namespace Inference

variable {limit : Position} {origin : SourceTree} {fileName : String} {host : Host} {root : NodeId}
  {modules imports functions : List NodeId} {signatures : List Signature}
  {signed final : InferenceState}

/-- A function stays the node that was parsed, with its span. -/
theorem Course.function_same
    (course : Course limit origin fileName host root modules imports functions signatures signed
      final) {function : NodeId} (member : function ∈ functions) :
    final.kind? function = origin.arena.kind? function ∧
      final.span? function = origin.spans.span? function :=
  course.inferred.above function (Or.inr (function_is_child course.prepared.found member))

/-- The check for returns gives the answer that it gives on the parsed body. -/
theorem Course.body_returns_iff
    (course : Course limit origin fileName host root modules imports functions signatures signed
      final) {function block : NodeId} {result : Option NodeId} {name : String}
    {parameters : List NodeId} (member : function ∈ functions)
    (known : origin.arena.kind? function = some (.function result name parameters block))
    (kept : ¬ origin.arena.Strays function) :
    final.tree.arena.bodyReturns block = false ↔ origin.arena.Runs block .finished := by
  have constructed := course.prepared.constructed
  have isBlock : block ∈ allBlocks origin functions := by
    refine List.mem_flatMap.mpr ⟨function, member, ?_⟩
    rw [Arena.blocks, known]
    exact List.mem_cons_self
  have same : Stood origin (allBlocks origin functions) final.tree block block :=
    stood_same ⟨block, isBlock, .refl⟩
  rw [Arena.body_returns_eq, Arena.returns_within_mirrored course.mirrors
    (Arena.statement_returns_mirrored course.mirrors) same]
  refine Arena.returns_within_iff constructed course.inferred.sound.size ?_ fun strays => ?_
  · exact constructed.admitted known (.body, block) (by simp [NodeKind.slots])
  · exact kept ((Arena.strays_function constructed known).mpr strays)

theorem Course.flags_paths
    (course : Course limit origin fileName host root modules imports functions signatures signed
      final) {function : NodeId} {reports : List Diagnostic} (member : function ∈ functions)
    (kept : ¬ origin.arena.Strays function)
    (flags : ModuleRoot.Flags final.tree function reports) :
    FlagsPaths origin function reports := by
  obtain ⟨sameKind, sameSpan⟩ := course.function_same member
  refine ⟨fun known => ?_, fun found inside code => ?_⟩
  · rw [← course.body_returns_iff member known kept, ← flags.missing (sameKind.trans known)]
    simp only [Diagnostic.code, DiagnosticKind.not_all_paths_iff]
  · rw [← show final.span? function = _ from sameSpan]
    exact flags.place found inside ((DiagnosticKind.not_all_paths_iff _).mpr code)

end Inference

namespace CheckedModule

variable {limit : Position} {parsed : ParsedModule} {modules imports functions : List NodeId}

/-- What the stages leave behind, one after the other. -/
theorem yields_stages (proper : parsed.Proper limit) (host : Host)
    (found : parsed.tree.arena.kind? parsed.root = some (.root modules imports functions)) :
    Yields (stages host ⟨parsed.root, parsed.fileName⟩) parsed.tree fun reported final =>
      ∃ signatures signed inferred findings parts,
        Inference.Course limit parsed.tree parsed.fileName host parsed.root modules imports functions
          signatures signed inferred ∧
        Ran (SourceTree.inferTypes parsed.fileName host parsed.root) parsed.tree
          inferred.diagnostics inferred.tree ∧
        Ran (Validator.mustReturn.run ⟨parsed.root, parsed.fileName⟩) inferred.tree findings
          inferred.tree ∧
        (∀ one ∈ inferred.diagnostics ++ findings, one ∈ reported) ∧
        findings = parts.flatten ∧
        List.Forall₂ (ModuleRoot.Inspects ⟨parsed.root, parsed.fileName⟩ inferred.tree) functions
          parts ∧
        (∃ shared, (∀ one ∈ shared.flatten, one ∈ reported) ∧
          List.Forall₂ (ModuleRoot.Apart inferred.tree) functions shared) ∧
        inferred.tree.Completing final ∧ (∀ function ∈ functions, final.Closed function) ∧
        ∃ clean, final.Woven limit host clean parsed.root modules imports functions := by
  unfold stages
  rw [yields_bind]
  refine (SourceTree.yields_infer_types_course proper.constructed found parsed.fileName
    host).ran.weaken ?_
  rintro _ _ ⟨⟨signatures, signed, inferred, course, rfl, rfl⟩, ran⟩
  have woven := Inference.woven_of_inferred proper.constructed found course.inferred
  rw [yields_bind, Validator.all]
  simp only [List.mapM_cons, List.mapM_nil, yields_bind]
  refine Yields.weaken (ModuleRoot.finds_module_names woven) ?_
  rintro first _ ⟨rfl, -⟩
  refine Yields.weaken (ModuleRoot.yields_parameters woven) ?_
  rintro _ _ ⟨rfl, shared, rfl, apart⟩
  refine Yields.weaken (ModuleRoot.finds_members woven) ?_
  rintro third _ ⟨rfl, -⟩
  refine Yields.weaken (ModuleRoot.yields_returns woven).ran ?_
  rintro _ _ ⟨⟨rfl, parts, rfl, inspects⟩, checked⟩
  refine Yields.weaken (ModuleRoot.yields_complete_returns woven) ?_
  rintro _ final ⟨rfl, later, completing, closed⟩
  refine ⟨signatures, signed, inferred, _, parts, course, ran, checked, fun one member => ?_, rfl,
    inspects, ⟨shared, fun one member => ?_, apart⟩, completing, closed, _, later⟩
  · simp only [List.mem_append] at member
    simp only [List.flatten_cons, List.mem_append]
    tauto
  · simp only [List.flatten_cons, List.mem_append]
    tauto

/-- No path comes to the end of a function if the check has passed it. -/
theorem not_finished_of_flags {tree final : SourceTree} {function block : NodeId}
    {result : Option NodeId} {name : String} {parameters : List NodeId}
    {reports : List Diagnostic} (flags : ModuleRoot.Flags tree function reports)
    (silent : ∀ found ∈ reports, found.kind ≠ .notAllPathsReturn)
    (known : tree.arena.kind? function = some (.function result name parameters block))
    (completing : tree.Completing final) (closed : final.Closed function) :
    ¬ final.arena.Runs block .finished := by
  obtain ⟨_, _, _, _, now, ends⟩ := closed
  cases (completing.prolongs.other known nofun).symm.trans now
  cases result with
  | none => exact SourceTree.not_finished_of_ended (ends rfl)
  | some written =>
      have passes : tree.arena.bodyReturns block ≠ false := fun fails => by
        obtain ⟨found, member, kind⟩ := (flags.missing known).mpr ⟨rfl, fails⟩
        exact silent found member kind
      rw [Bool.ne_false_iff] at passes
      exact Arena.not_finished_of_body_returns (completing.prolongs.body_returns completing.size passes)

/-- In every parsed module the reports about missing returns are those of the
functions with a path to their end, and every function without a result is given
a return. Where no error is reported, no path comes to the end of a function. -/
theorem of_text_ends (text fileName : String) (host : Host) :
    ∃ parsed checked modules imports functions reports findings inferred,
      ParsedModule.ofText text fileName = .ok parsed ∧
      ofText text fileName host = .ok checked ∧
      (SourceTree.inferTypes parsed.fileName host parsed.root).run parsed.tree =
        .ok reports inferred ∧
      (Validator.mustReturn.run ⟨parsed.root, parsed.fileName⟩).run inferred =
        .ok findings inferred ∧
      (∀ found ∈ reports ++ findings, found ∈ checked.diagnostics) ∧
      checked.root = parsed.root ∧
      parsed.tree.arena.kind? parsed.root = some (.root modules imports functions) ∧
      checked.tree.arena.kind? checked.root = some (.root modules imports functions) ∧
      EndsChecked parsed functions reports findings checked := by
  obtain ⟨parsed, wasParsed, proper, -⟩ := ParsedModule.of_text_proper text fileName
  obtain ⟨modules, imports, functions, root⟩ := proper.root
  obtain ⟨reported, final, ran, signatures, signed, inferred, findings, parts, course, first, second,
    inside, split, inspects, -, completing, closed, _, woven⟩ :=
    yields_iff.mp (yields_stages proper host root)
  have flags : List.Forall₂ (ModuleRoot.Flags inferred.tree) functions parts :=
    inspects.imp fun _ _ => ModuleRoot.Inspects.flags
  have silent : Diagnostic.hasErrors (parsed.diagnostics ++ reported) = false →
      ∀ found ∈ inferred.diagnostics ++ findings, found.isError = false := by
    intro clean found member
    have all := List.any_eq_false.mp clean found (List.mem_append_right _ (inside found member))
    simpa using all
  refine ⟨parsed, ⟨final, parsed.root, parsed.diagnostics ++ reported, parsed.fileName⟩, modules,
    imports, functions, inferred.diagnostics, findings, inferred.tree, wasParsed, ?_, first, second,
    fun one member => List.mem_append_right _ (inside one member), rfl, root, woven.found, ?_⟩
  · unfold ofText
    rw [wasParsed]
    change ofParsed parsed host = _
    unfold ofParsed
    rw [ran]
  have jumps : (∃ found ∈ inferred.diagnostics, found.code = "SEM1022") ↔
      ∃ function ∈ functions, parsed.tree.arena.Strays function := by
    rw [← course.warned]
    simp only [Inference.Warned, DiagnosticKind.is_jump_iff, Diagnostic.code]
  refine ⟨jumps, fun none => ⟨parts, split, ?_⟩, closed, ?_⟩
  · have kept : ∀ function ∈ functions, ¬ parsed.tree.arena.Strays function := by
      intro function member strays
      obtain ⟨found, member, code⟩ := jumps.mpr ⟨function, member, strays⟩
      exact none found member code
    refine (List.forall₂_iff_get.mpr ⟨flags.length_eq, fun index left right => ?_⟩)
    have member := List.get_mem functions ⟨index, left⟩
    exact course.flags_paths member (kept _ member) (flags.get left right)
  · intro clean function member result name parameters block known
    have partners : List.Forall₂ (flip (ModuleRoot.Flags inferred.tree)) parts functions :=
      List.Forall₂.flip flags
    obtain ⟨reports, held, flagged⟩ := partner_of_member partners member
    obtain ⟨_, _, _, _, before⟩ := Inference.function_kind proper.constructed root member
    have now := (course.function_same member).1.trans before
    cases (completing.prolongs.other now (by simp)).symm.trans known
    refine not_finished_of_flags flagged (fun found inside kind => ?_) now completing
      (closed function member)
    have quiet := silent clean found (by simp [split, List.mem_flatten.mpr ⟨reports, held, inside⟩])
    rw [Diagnostic.isError, Diagnostic.level, kind] at quiet
    cases quiet

end CheckedModule

end ModuleLang
