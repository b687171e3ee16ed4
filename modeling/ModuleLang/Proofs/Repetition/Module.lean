import ModuleLang.Proofs.Parsing.Declaration
import ModuleLang.Proofs.Repetition.Sources
import ModuleLang.Proofs.Typing.Approval

/-!
Names that are defined again in the functions of a module. A function is entered with its
parameters visible, and nothing that was reported before is in it. So the reports about its
names are those that are made on the way through its body.
-/

namespace ModuleLang

namespace Scopes

theorem seen_empty : empty.seen = ∅ := by
  ext name
  simp [seen, lookup, empty, Frame.empty]

theorem held_empty : empty.held = ∅ := by
  ext name
  simp [held, nested, empty, Frame.empty]

end Scopes

namespace Arena

variable {arena : Arena} {parameters : List NodeId} {names : Scopes} {parameter : NodeId}

theorem seen_with_parameter : (arena.withParameter names parameter).seen =
    names.seen ∪ {name | ∃ written, arena.kind? parameter = some (.parameter written name)} := by
  unfold withParameter
  split
  · rename_i written name found
    have own : {other | ∃ written, arena.kind? parameter = some (.parameter written other)} =
        {name} := by
      ext other
      simp [found, eq_comm]
    rw [own]
    split
    · exact Scopes.seen_declare
    · rename_i seen
      have visible : name ∈ names.seen := by
        rw [Option.isNone_iff_eq_none] at seen
        exact Option.isSome_iff_ne_none.mpr seen
      exact (Set.union_eq_self_of_subset_right (Set.singleton_subset_iff.mpr visible)).symm
  · rename_i other
    have none : {name | ∃ written, arena.kind? parameter = some (.parameter written name)} = ∅ := by
      apply Set.eq_empty_of_forall_notMem
      rintro name ⟨written, found⟩
      exact other written name found
    rw [none, Set.union_empty]

theorem held_with_parameter : (arena.withParameter names parameter).held = names.held := by
  unfold withParameter
  split
  · split <;> rfl
  · rfl

theorem entries_with_parameter {entry : String × NodeId}
    (member : entry ∈ (arena.withParameter names parameter).entries) :
    entry ∈ names.entries ∨
      (entry.2 = parameter ∧ ∃ written, arena.kind? entry.2 = some (.parameter written entry.1)) := by
  unfold withParameter at member
  split at member
  · rename_i written name found
    split at member
    · rcases Scopes.entries_declare member with rfl | old
      · exact .inr ⟨rfl, written, found⟩
      · exact .inl old
    · exact .inl member
  · exact .inl member

theorem seen_with_parameters : (parameters.foldl arena.withParameter names).seen =
    names.seen ∪ {name | ∃ parameter ∈ parameters, ∃ written,
      arena.kind? parameter = some (.parameter written name)} := by
  induction parameters generalizing names with
  | nil => simp
  | cons parameter parameters ih =>
      rw [List.foldl_cons, ih, seen_with_parameter, Set.union_assoc]
      congr 1
      ext name
      simp

theorem held_with_parameters : (parameters.foldl arena.withParameter names).held = names.held := by
  induction parameters generalizing names with
  | nil => rfl
  | cons parameter parameters ih => rw [List.foldl_cons, ih, held_with_parameter]

theorem entries_with_parameters {entry : String × NodeId}
    (member : entry ∈ (parameters.foldl arena.withParameter names).entries) :
    entry ∈ names.entries ∨
      (entry.2 ∈ parameters ∧ ∃ written, arena.kind? entry.2 = some (.parameter written entry.1)) := by
  induction parameters generalizing names with
  | nil => exact .inl member
  | cons parameter parameters ih =>
      rcases ih member with early | ⟨later, named⟩
      · rcases entries_with_parameter early with old | ⟨same, named⟩
        · exact .inl old
        · exact .inr ⟨List.mem_cons.mpr (.inl same), named⟩
      · exact .inr ⟨List.mem_cons_of_mem _ later, named⟩

end Arena

namespace Inference

variable {limit : Position} {origin : SourceTree} {environment : Environment}

section Entry

variable {root function block : NodeId} {modules imports functions passed left : List NodeId}
  {parameters : List NodeId} {result : Option NodeId} {called : String}
  {start signed before declared after : InferenceState}

/-- A parameter is a head of its function. -/
theorem head_of_parameter {parameter : NodeId}
    (known : origin.arena.kind? function = some (.function result called parameters block))
    (member : parameter ∈ parameters) : parameter ∈ origin.arena.heads function := by
  unfold Arena.heads
  rw [known]
  exact List.mem_append_right _ member

variable
  (prepared : Prepared limit origin environment.host root modules imports functions start signed)
  (advanced : Advanced limit origin environment.host functions passed (function :: left) signed
    before)
  (known : origin.arena.kind? function = some (.function result called parameters block))

include prepared advanced known

theorem parameter_named {parameter : NodeId} {name : String} (member : parameter ∈ parameters) :
    (∃ written, before.kind? parameter = some (.parameter written name)) ↔
      ∃ written, origin.arena.kind? parameter = some (.parameter written name) := by
  have head : parameter ∈ allHeads origin functions := by
    have inside : function ∈ functions := by simp [← advanced.whole]
    exact List.mem_flatMap.mpr ⟨function, inside, head_of_parameter known member⟩
  constructor
  · rintro ⟨written, now⟩
    rcases prepared.constructed.admitted known (.parameter, parameter)
      (by simp [NodeKind.slots, member]) with ⟨kind, found, admits⟩
    cases kind with
    | parameter other own =>
        rcases prepared.parameter_kind advanced head found with ⟨_, still⟩
        cases now.symm.trans still
        exact ⟨other, found⟩
    | _ => cases admits
  · rintro ⟨written, found⟩
    exact prepared.parameter_kind advanced head found

/-- A function is entered with the names of its parameters. -/
theorem seen_at_entry
    (entry : Ran (parameters.forM declareParameter) (entered before result) ⟨⟩ declared) :
    declared.scopes.seen = {name | ∃ parameter, origin.arena.HasParameter function name parameter} ∧
      declared.scopes.held = ∅ := by
  cases ran_declare_parameters entry
  constructor
  · apply Arena.seen_with_parameters.trans
    rw [show (entered before result).scopes.seen = ∅ from Scopes.seen_empty, Set.empty_union]
    ext name
    constructor
    · rintro ⟨parameter, member, named⟩
      rcases (parameter_named prepared advanced known member).mp named with ⟨written, found⟩
      exact ⟨parameter, result, called, parameters, block, written, known, member, found⟩
    · rintro ⟨parameter, _, _, _, _, written, again, member, found⟩
      cases known.symm.trans again
      exact ⟨parameter, member,
        (parameter_named prepared advanced known member).mpr ⟨written, found⟩⟩
  · exact Arena.held_with_parameters.trans Scopes.held_empty

/-- Every parameter comes from itself. -/
theorem attributed_entry
    (entry : Ran (parameters.forM declareParameter) (entered before result) ⟨⟩ declared) :
    Attributed origin environment before (parameters.map fun parameter => (parameter, parameter))
      declared := by
  have constructed := prepared.constructed
  have inside : function ∈ functions := by simp [← advanced.whole]
  have slot : ∀ parameter ∈ parameters, parameter ∈ origin.arena.children function :=
    fun parameter member => Arena.head_is_child (head_of_parameter known member)
  cases ran_declare_parameters entry
  constructor
  · have distinct := constructed.forest.distinct_of_kind known
    rw [NodeKind.children] at distinct
    rw [List.map_map, Function.comp_def, List.map_id']
    exact (List.nodup_append.mp (List.nodup_append.mp distinct).1).2.1
  · rw [List.forall_mem_map]
    intro parameter member
    exact Nat.lt_of_lt_of_le (Nat.lt_trans (constructed.forest.below (slot parameter member))
      (Arena.kind_bound known)) advanced.sound.size
  · rw [List.forall_mem_map]
    intro parameter member
    exact (prepared.head_kept advanced
      (List.mem_flatMap.mpr ⟨function, inside, head_of_parameter known member⟩)).2
  · intro found member
    rcases Arena.entries_with_parameters member with none | ⟨isParameter, named⟩
    · cases none
    · rcases (parameter_named prepared advanced known isParameter).mp named with ⟨written, named⟩
      exact ⟨found.2, List.mem_map_of_mem isParameter, .parameter named⟩
  · refine ⟨[], List.nil_subset _, List.nodup_nil, rfl, [], ?_, .nil⟩
    exact (List.append_nil _).symm

end Entry

/-- All reports about the names of some functions, each of another place, and where they are. -/
structure Itemized (origin : SourceTree) (environment : Environment) (functions : List NodeId)
    (places : List NodeId) (before after : InferenceState) : Prop where
  told : ∃ reports, after.told = before.told ++ reports ∧
    List.Forall₂ (origin.RedefinedAt environment.fileName) reports places
  distinct : places.Nodup
  inside : ∀ place ∈ places, Below origin functions place
  exact : ∀ function ∈ functions,
    (∃ place ∈ places, origin.arena.Reachable function place) ↔ origin.arena.Conflicts function
  noted : ∀ id ∈ after.duplicates,
    id ∈ before.duplicates ∨ Below origin functions id ∨ origin.arena.size ≤ id.index

namespace Itemized

variable {function : NodeId} {rest places more : List NodeId} {before middle after : InferenceState}

theorem nil (state : InferenceState) : Itemized origin environment [] [] state state where
  told := ⟨[], (List.append_nil _).symm, .nil⟩
  distinct := List.nodup_nil
  inside := nofun
  exact := nofun
  noted _ member := .inl member

/-- What is reported of one function is not reported of the others. -/
theorem cons (constructed : origin.Constructed limit) (siblings : Siblings origin (function :: rest))
    (first : Itemized origin environment [function] places before middle)
    (second : Itemized origin environment rest more middle after) :
    Itemized origin environment (function :: rest) (places ++ more) before after where
  told := by
    rcases first.told with ⟨said, early, fine⟩
    rcases second.told with ⟨reports, late, also⟩
    refine ⟨said ++ reports, ?_, List.rel_append fine also⟩
    rw [late, early, List.append_assoc]
  distinct := by
    apply List.nodup_append.mpr
    refine ⟨first.distinct, second.distinct, ?_⟩
    rintro place early _ late rfl
    exact siblings.apart constructed (first.inside place early) (second.inside place late)
  inside place member := by
    rcases List.mem_append.mp member with early | late
    · exact below_cons.mpr (.inl (first.inside place early))
    · exact below_cons.mpr (.inr (second.inside place late))
  exact other member := by
    rcases List.mem_cons.mp member with rfl | among
    · rw [← first.exact other List.mem_cons_self]
      constructor
      · rintro ⟨place, member, below⟩
        rcases List.mem_append.mp member with early | late
        · exact ⟨place, early, below⟩
        · exact absurd (second.inside place late)
            (siblings.apart constructed (below_singleton.mpr below))
      · rintro ⟨place, early, below⟩
        exact ⟨place, List.mem_append_left _ early, below⟩
    · rw [← second.exact other among]
      constructor
      · rintro ⟨place, member, below⟩
        rcases List.mem_append.mp member with early | late
        · exact absurd ⟨other, among, below⟩
            (siblings.apart constructed (first.inside place early))
        · exact ⟨place, late, below⟩
      · rintro ⟨place, late, below⟩
        exact ⟨place, List.mem_append_right _ late, below⟩
  noted id member := by
    rcases second.noted id member with between | below | new
    · rcases first.noted id between with old | below | new
      · exact .inl old
      · exact .inr (.inl (below_cons.mpr (.inl below)))
      · exact .inr (.inr new)
    · exact .inr (.inl (below_cons.mpr (.inr below)))
    · exact .inr (.inr new)

end Itemized

section Modules

variable {root function block : NodeId} {modules imports functions passed left : List NodeId}
  {parameters found : List NodeId} {result : Option NodeId} {called : String}
  {start signed before declared after : InferenceState}

/-- A parameter stands beside the body of its function. -/
theorem parameter_apart (constructed : origin.Constructed limit)
    (known : origin.arena.kind? function = some (.function result called parameters block)) :
    ∀ source ∈ parameters.map fun parameter => (parameter, parameter),
      Outlies origin [block] source ∧ Arises origin [function] source := by
  rw [List.forall_mem_map]
  intro parameter member
  have isHead := head_of_parameter known member
  have isBlock : block ∈ origin.arena.blocks function := by simp [Arena.blocks, known]
  have apart : ¬ Below origin [block] parameter := by
    intro below
    have same := constructed.forest.siblings_disjoint (Arena.head_is_child isHead)
      (Arena.block_is_child isBlock) .refl (below_singleton.mp below)
    exact constructed.forest.head_ne_block isHead isBlock same
  have below : Below origin [function] parameter :=
    below_singleton.mpr (.of_child (Arena.head_is_child isHead))
  exact ⟨⟨apart, apart⟩, .inl below, below⟩

/-- Some nodes are reported of exactly if something is. -/
theorem Tallied.some_iff {repeated : List (NodeId × NodeId)}
    (tallied : Tallied origin environment repeated before after)
    (inside : ∀ source ∈ repeated, origin.arena.Reachable function source.2) :
    (∃ place ∈ repeated.map Prod.snd, origin.arena.Reachable function place) ↔
      after.told ≠ before.told := by
  rcases tallied.told with ⟨reports, told, each⟩
  rw [told, ne_eq, List.append_right_eq_self]
  cases each with
  | nil => simp
  | @cons found source reports repeated _ _ =>
      apply iff_of_true _ (List.cons_ne_nil _ _)
      exact ⟨source.2, List.mem_map_of_mem List.mem_cons_self, inside source List.mem_cons_self⟩

/-- More is reported of names in a function if two of its definitions conflict. -/
theorem itemized_of_function
    (prepared : Prepared limit origin environment.host root modules imports functions start signed)
    (advanced : Advanced limit origin environment.host functions passed (function :: left) signed
      before)
    (known : origin.arena.kind? function = some (.function result called parameters block))
    (entry : Ran (parameters.forM declareParameter) (entered before result) ⟨⟩ declared)
    (walk : Walk limit origin environment [block] declared found after)
    (unreported : Unreported origin [function] before) :
    ∃ places, Itemized origin environment [function] places before after := by
  have constructed := prepared.constructed
  have start := attributed_entry prepared advanced known entry
  have heads := parameter_apart constructed known
  rcases seen_at_entry prepared advanced known entry with ⟨seen, held⟩
  have same : declared.duplicates = before.duplicates ∧ declared.told = before.told := by
    cases ran_declare_parameters entry
    exact ⟨rfl, rfl⟩
  have isBlock : block ∈ origin.arena.children function :=
    Arena.child_of_kind known (by simp [NodeKind.children])
  have inBlock : ∀ id, Below origin [block] id → Below origin [function] id := by
    intro id below
    exact below_singleton.mpr (.below_child isBlock (below_singleton.mp below))
  have siblings : Siblings origin [block] :=
    siblings_of_kind known (by simp [NodeKind.children])
  have outlies := fun source member => (heads source member).1
  rcases walk.sourced constructed siblings _ start outlies with ⟨added, attributed, arises⟩
  rcases attributed.reported with ⟨repeated, among, tallied⟩
  have arisen : ∀ source ∈ repeated, Arises origin [function] source := by
    intro source member
    rcases List.mem_append.mp (among member) with old | new
    · exact (heads source old).2
    · exact (arises source new).weaken inBlock
  have exact : origin.arena.Conflicts function ↔ after.told ≠ declared.told := by
    rw [← Arena.clashes_iff_conflicts constructed known, ← held, ← seen]
    apply Exact.iff
    exact walk.exact constructed siblings (unreported.weaken same.1 inBlock)
  rcases tallied.told with ⟨reports, told, each⟩
  refine ⟨repeated.map Prod.snd, ⟨reports, told, ?_⟩, ?_, ?_, ?_, ?_⟩
  · exact List.forall₂_map_right_iff.mpr each
  · exact tallied.distinct.map_on fun one member other also same =>
      List.inj_on_of_nodup_map attributed.places (among member) (among also) same
  · rw [List.forall_mem_map]
    exact fun source member => (arisen source member).2
  · rw [List.forall_mem_singleton, exact, same.2]
    exact tallied.some_iff fun source member => below_singleton.mp (arisen source member).2
  · intro id member
    rw [tallied.noted, List.mem_append, List.mem_reverse] at member
    rcases member with again | old
    · rcases List.mem_map.mp again with ⟨source, isRepeated, rfl⟩
      exact .inr (arisen source isRepeated).1
    · exact .inl old

theorem Rounds.itemized
    (prepared : Prepared limit origin environment.host root modules imports functions start signed)
    (rounds : Rounds limit origin environment functions signed left before after)
    (siblings : Siblings origin left) (unreported : Unreported origin left before) :
    ∃ places, Itemized origin environment left places before after := by
  have constructed := prepared.constructed
  induction rounds with
  | nil => exact ⟨[], .nil _⟩
  | next known advanced entry noted ready walk work later ih =>
      have head := itemized_of_function prepared advanced known entry walk unreported.head
      rcases head with ⟨places, first⟩
      have rest := ih siblings.tail (by
        intro id member below
        rcases first.noted id member with old | inside | new
        · exact unreported id old (below_cons.mpr (.inr below))
        · exact siblings.apart constructed inside below
        · exact Nat.not_lt.mpr new (siblings.bounded constructed (below_cons.mpr (.inr below))))
      rcases rest with ⟨more, second⟩
      exact ⟨places ++ more, first.cons constructed siblings second⟩

/-- All that is reported of names in a module. -/
theorem Course.itemized {fileName : String} {host : Host} {signatures : List Signature}
    (course : Course limit origin fileName host root modules imports functions signatures signed
      after) :
    ∃ places, List.Forall₂ (origin.RedefinedAt fileName) after.told places ∧ places.Nodup ∧
      (∀ place ∈ places, Below origin functions place) ∧
      ∀ function ∈ functions, (∃ place ∈ places, origin.arena.Reachable function place) ↔
        origin.arena.Conflicts function := by
  have prepared := course.prepared
  have fresh : SameNames (.initial origin) signed :=
    same_names_frame.keeps_mapM (same_names_frame.keeps_signature _) _ _ _ _ course.ran
  have none : signed.told = [] := fresh.told
  have siblings : Siblings origin functions :=
    siblings_of_kind prepared.found (List.sublist_append_right _ _)
  rcases course.rounds.itemized prepared siblings (by
    intro id member
    rw [fresh.duplicates] at member
    cases member) with ⟨places, ⟨reports, told, each⟩, distinct, inside, exact, -⟩
  rw [none, List.nil_append] at told
  exact ⟨places, told ▸ each, distinct, inside, exact⟩

end Modules

end Inference

/-!
Names that are defined again, in all modules: they are reported exactly where two definitions
conflict, and at no place more than once.
-/

theorem DiagnosticKind.is_repetition_iff (kind : DiagnosticKind) :
    kind.isRepetition = true ↔ kind.code = "SEM1012" := by
  cases kind <;> simp [isRepetition, code]

namespace ParsedModule

/-- Every function in which two definitions of one name conflict is reported for that, and no
other one. All reports are of different places in the functions, which have the name and the
span of the report. A plain assignment counts as a definition where no definition of its name
stands before it in its own body or in one around that, and no parameter has the name. -/
theorem infer_types_redefined (text fileName : String) (host : Host) :
    ∃ parsed modules imports functions diagnostics tree places,
      ofText text fileName = .ok parsed ∧
      parsed.tree.arena.kind? parsed.root = some (.root modules imports functions) ∧
      (SourceTree.inferTypes parsed.fileName host parsed.root).run parsed.tree =
        .ok diagnostics tree ∧
      List.Forall₂ (parsed.tree.RedefinedAt parsed.fileName)
        (diagnostics.filter fun found => found.kind.code = "SEM1012") places ∧
      places.Nodup ∧
      (∀ place ∈ places, ∃ function ∈ functions, parsed.tree.arena.Reachable function place) ∧
      (∀ function ∈ functions,
        (∃ place ∈ places, parsed.tree.arena.Reachable function place) ↔
          parsed.tree.arena.Conflicts function) ∧
      ∀ function body statement name, parsed.tree.arena.Reachable function body →
        parsed.tree.arena.StandsIn body statement →
        parsed.tree.arena.PlainAssignment name statement →
          (parsed.tree.arena.Defines function name statement (some body) ↔
            ¬ ∃ earlier place, parsed.tree.arena.Defines function name earlier place ∧
              (place = none ∨ parsed.tree.arena.Foregoes function earlier statement)) := by
  rcases of_text_proper text fileName with ⟨parsed, wasParsed, proper, -⟩
  rcases proper.root with ⟨modules, imports, functions, root⟩
  have constructed := proper.constructed
  rcases yields_iff.mp (SourceTree.yields_infer_types_course constructed root parsed.fileName host)
    with ⟨diagnostics, tree, ran, signatures, signed, final, course, rfl, rfl⟩
  rcases course.itemized with ⟨places, reports, distinct, inside, exact⟩
  have told : final.diagnostics.filter (fun found => found.kind.code = "SEM1012") = final.told := by
    apply List.filter_congr
    intro found _
    rw [Bool.eq_iff_iff, decide_eq_true_iff]
    exact found.kind.is_repetition_iff.symm
  refine ⟨parsed, modules, imports, functions, final.diagnostics, final.tree, places, wasParsed,
    root, ran, told ▸ reports, distinct, inside, exact, ?_⟩
  intro function body statement name within stands plain
  exact Arena.defines_plain_iff constructed.forest within stands plain

/-- Bodies beside each other may each define a name. The body around them must not, and then the
one that was closed first is reported too. -/
example : (ofText "module m; fn f() { { a := 1; } { a := 2; } a := 3; a := 4; }" "m.plp").toOption.map
    (fun parsed =>
      match (SourceTree.inferTypes parsed.fileName .empty parsed.root).run parsed.tree with
      | .ok diagnostics _ => diagnostics.map fun found => (found.kind.code, found.span.start)
      | _ => []) = some [("SEM1012", ⟨0, 21⟩), ("SEM1012", ⟨0, 43⟩)] := by
  decide +kernel

end ParsedModule

end ModuleLang
