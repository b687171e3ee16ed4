import ModuleLang.Proofs.Parsing.Declaration
import ModuleLang.Proofs.Typing.Heredity
import ModuleLang.Proofs.Typing.Rechecking

/-!
Inference once more over a module that it accepts. The signatures are collected again,
every function is entered with the names of its parameters, and its body is found as it
was left: inference is idempotent on modules without errors whose variables all have a
written type.
-/

namespace ModuleLang.Inference

variable {limit : Position} {environment : Environment} {origin tree : SourceTree}
  {result : Option Ty} {loops : Nat} {names : Scopes} {root function : NodeId}
  {parameters functions : List NodeId} {reports all : List Diagnostic}

theorem repeats_parameters
    (admitted : ∀ parameter ∈ parameters, tree.arena.Admitted .parameter parameter) :
    Repeats tree result loops names (parameters.forM declareParameter) ⟨⟩
      (parameters.foldl tree.arena.withParameter names) [] := by
  induction parameters generalizing names with
  | nil => exact repeats_pure _
  | cons parameter parameters ih =>
      rw [List.forall_mem_cons] at admitted
      rcases admitted.1 with ⟨kind, found, admits⟩
      have declared : Repeats tree result loops names (declareParameter parameter) ⟨⟩
          (tree.arena.withParameter names parameter) [] := by
        unfold Arena.withParameter
        rw [found]
        apply (repeats_kind parameter).before
        rw [found]
        cases kind with
        | parameter written name =>
            apply repeats_scopes.before
            simp only
            split
            · exact (repeats_type parameter).before (repeats_on_scopes _)
            · exact repeats_pure _
        | _ => cases admits
      exact declared.before (ih admitted.2)

/-- The signature of an accepted function is collected again. -/
theorem Endorsed.repeats_signature (endorsed : Endorsed environment tree function reports)
    (engrafted : SourceTree.Engrafted limit origin tree root)
    (above : tree.arena.Reachable root function) (result : Option Ty) (loops : Nat) :
    ∃ found, tree.arena.signature? function = some found ∧
      Repeats tree result loops .empty (signature { environment with functions := [] } function)
        found .empty [] := by
  rcases endorsed with ⟨found, heads, -⟩
  rename_i written name parameters block last
  have child : ∀ {category head}, (category, head) ∈
      (NodeKind.function written name parameters block).slots →
      tree.arena.Reachable root head := by
    intro category head slot
    apply above.tail
    exact Arena.child_of_kind found (NodeKind.slot_is_child slot)
  refine ⟨⟨name, parameters.map tree.arena.type?, tree.arena.resultType written⟩, ?_, ?_⟩
  · unfold Arena.signature?
    rw [found]
  · rcases Accepted.split heads with ⟨first, second, quiet, resultHead, parameterHeads⟩
    rcases List.append_eq_nil_iff.mp quiet.symm with ⟨rfl, rfl⟩
    have resultType : Repeats tree result loops .empty
        (resultType { environment with functions := [] } written) (tree.arena.resultType written)
        .empty [] := by
      cases written with
      | none => exact repeats_pure _
      | some written =>
          have slot : (Category.type, written) ∈
              (NodeKind.function (some written) name parameters block).slots := by
            simp [NodeKind.slots]
          exact (resultHead.repeated_one result loops engrafted (child slot)).type
            (engrafted.sorted above found slot (by simp))
    have slots : ∀ parameter ∈ parameters, (Category.parameter, parameter) ∈
        (NodeKind.function written name parameters block).slots := fun parameter member => by
      simp [NodeKind.slots, member]
    rcases parameterHeads.repeated result loops engrafted
      fun parameter member => child (slots parameter member) with ⟨each, silent, repeated⟩
    have types : Repeats tree result loops .empty
        (parameters.mapM (parameterType { environment with functions := [] }))
        (parameters.map tree.arena.type?) .empty [] := by
      rw [silent]
      apply repeats_mapM
      exact ((List.forall₂_and_left _ _).mpr ⟨slots, repeated⟩).imp fun _ _ held =>
        held.2.parameter (engrafted.sorted above found held.1 (by simp))
    apply (repeats_kind function).before
    rw [found]
    exact resultType.before (types.before (repeats_pure _))

/-- An accepted function is run again, whatever was run before it. -/
theorem Endorsed.ran_again (endorsed : Endorsed environment tree function reports)
    (engrafted : SourceTree.Engrafted limit origin tree root)
    (above : tree.arena.Reachable root function)
    (hands : Hands environment tree (tree.arena.Reads environment.host) all [root])
    (typed : ∀ id name, tree.arena.Reachable root id →
      tree.arena.kind? id ≠ some (.definition none name))
    (within : reports ⊆ all) (names : Scopes) (result : Option Ty) (loops : Nat)
    (said : List Diagnostic) : ∃ last ended,
      Ran (Inference.function environment function) ⟨tree, names, result, loops, [], said⟩ ⟨⟩
        ⟨tree, last, ended, 0, [], said ++ reports⟩ := by
  rcases endorsed with ⟨found, heads, proceeds⟩
  rename_i written name parameters block last
  have reached : Hands environment tree (tree.arena.Reads environment.host) all [function] :=
    hands.reached fun node member => ⟨root, List.mem_singleton_self _, by
      rw [List.mem_singleton.mp member]
      exact above⟩
  have bound := (heads_account found heads engrafted above reached).1
  have parameterSlots : ∀ parameter ∈ parameters, (Category.parameter, parameter) ∈
      (NodeKind.function written name parameters block).slots := fun parameter member => by
    simp [NodeKind.slots, member]
  have blockSlot : (Category.body, block) ∈
      (NodeKind.function written name parameters block).slots := by
    simp [NodeKind.slots]
  have under : tree.arena.Reachable root block :=
    above.tail (Arena.child_of_kind found (NodeKind.slot_is_child blockSlot))
  have declared : Repeats tree (tree.arena.resultType written) 0 .empty
      (parameters.forM declareParameter) ⟨⟩ (tree.arena.parameterScopes parameters) [] :=
    repeats_parameters fun parameter member =>
      engrafted.sorted above found (parameterSlots parameter member) (by simp)
  rcases engrafted.sorted above found blockSlot (by simp) with ⟨kind, held, admits⟩
  have bodied : Repeats tree (tree.arena.resultType written) 0
      (tree.arena.parameterScopes parameters) (wholeBody environment block) ⟨⟩ last reports := by
    cases kind with
    | body statements =>
        apply repeats_get
        intro said
        refine Repeats.body_of_statement held (proceeds.repeats engrafted hands typed within bound
          (List.forall_mem_singleton.mpr under) (List.forall_mem_singleton.mpr ?_))
        have size := Arena.kind_bound held
        exact ⟨Nat.succ_pos _, fun _ => Nat.lt_succ_of_lt (Nat.lt_succ_of_lt size)⟩
    | _ => cases admits
  have entry : Ran (enter written) ⟨tree, names, result, loops, [], said⟩ ⟨⟩
      ⟨tree, .empty, tree.arena.resultType written, 0, [], said⟩ := by
    cases written <;> rfl
  refine ⟨last, tree.arena.resultType written, ran_bind.mpr
    ⟨some (.function written name parameters block), _, congrArg (EStateM.Result.ok · _) found, ?_⟩⟩
  exact ran_bind.mpr ⟨_, _, entry, declared.before bodied said⟩

section Modules

variable (engrafted : SourceTree.Engrafted limit origin tree root)
  (above : ∀ function ∈ functions, tree.arena.Reachable root function)
  (endorsed : EndorsedAll environment tree functions reports)

include engrafted above endorsed

theorem EndorsedAll.repeats_signatures (result : Option Ty) (loops : Nat) :
    Repeats tree result loops .empty
      (functions.mapM (signature { environment with functions := [] }))
      (functions.filterMap tree.arena.signature?) .empty [] := by
  rcases endorsed with ⟨each, matched, -⟩
  induction matched with
  | nil => exact repeats_pure _
  | @cons function said functions each first matched ih =>
      rcases first.repeats_signature engrafted (above function List.mem_cons_self) result loops with
        ⟨found, own, here⟩
      rw [List.filterMap_cons_some own]
      exact repeats_mapM_cons here (ih fun other member => above other (List.mem_cons_of_mem _ member))

/-- Every function starts anew, so that the bodies can be run one after the other. -/
theorem EndorsedAll.ran_again
    (hands : Hands environment tree (tree.arena.Reads environment.host) all [root])
    (typed : ∀ id name, tree.arena.Reachable root id →
      tree.arena.kind? id ≠ some (.definition none name))
    (within : reports ⊆ all) (names : Scopes) (result : Option Ty) (loops : Nat)
    (said : List Diagnostic) : ∃ last ended depth,
      Ran (functions.forM (Inference.function environment)) ⟨tree, names, result, loops, [], said⟩
        ⟨⟩ ⟨tree, last, ended, depth, [], said ++ reports⟩ := by
  rcases endorsed with ⟨each, matched, rfl⟩
  induction matched generalizing names result loops said with
  | nil => exact ⟨names, result, loops, by rw [List.flatten_nil, List.append_nil]; rfl⟩
  | @cons function here functions each first matched ih =>
      rw [List.flatten_cons] at within ⊢
      rcases first.ran_again engrafted (above function List.mem_cons_self) hands typed
        (List.append_subset.mp within).1 names result loops said with
        ⟨middle, ended, once⟩
      rcases ih (fun other member => above other (List.mem_cons_of_mem _ member)) middle ended 0
        (said ++ here) (List.append_subset.mp within).2 with ⟨last, ended, depth, rest⟩
      rw [List.append_assoc] at rest
      exact ⟨last, ended, depth, ran_bind.mpr ⟨_, _, once, rest⟩⟩

end Modules

end ModuleLang.Inference

namespace ModuleLang.SourceTree

variable {limit : Position} {origin tree : SourceTree} {host : Host} {fileName : String}
  {root : NodeId} {modules imports functions : List NodeId} {reports : List Diagnostic}

/-- A module that is accepted as it is left is inferred again: the same is reported, and
the tree is not touched. -/
theorem infers_again (engrafted : Engrafted limit origin tree root) (described : host.Described)
    (found : tree.arena.kind? root = some (.root modules imports functions))
    (endorsed : Inference.EndorsedAll
      ⟨fileName, host, functions.filterMap tree.arena.signature?⟩ tree functions reports)
    (typed : ∀ id name, tree.arena.Reachable root id →
      tree.arena.kind? id ≠ some (.definition none name)) :
    inferTypes fileName host root tree = .ok reports tree := by
  have above : ∀ function ∈ functions, tree.arena.Reachable root function := fun function member =>
    .of_child (Arena.child_of_kind found (List.mem_append_right _ member))
  have hereditary : Hereditary host host.Reads reports := hereditary_reads described
  have results := endorsed.results engrafted above hereditary
  have hands : Inference.Hands
      ⟨fileName, host, functions.filterMap tree.arena.signature?⟩ tree
      (tree.arena.Reads host) reports [root] :=
    Inference.hands_of_hereditary hereditary results engrafted (List.forall_mem_singleton.mpr .refl)
      nofun
  have signatures := endorsed.repeats_signatures engrafted above none 0
  rcases endorsed.ran_again engrafted above hands typed (List.Subset.refl _) .empty none 0 [] with
    ⟨last, ended, depth, bodies⟩
  have ran : Ran (Inference.wholeModule fileName host root) (.initial tree) ⟨⟩
      ⟨tree, last, ended, depth, [], reports⟩ := by
    have kind : Ran (Inference.kind? root) (.initial tree)
        (some (.root modules imports functions)) (.initial tree) := by
      rw [← found]
      rfl
    exact ran_bind.mpr ⟨_, _, kind, ran_bind.mpr ⟨_, _, signatures [], bodies⟩⟩
  unfold inferTypes Inference.diagnose
  rw [show (Inference.wholeModule fileName host root).run (.initial tree) = _ from ran]

end ModuleLang.SourceTree

namespace ModuleLang.ParsedModule

/-- Where inference of a module reports no error and leaves a written type at every
variable that is defined, inference of the tree that it leaves reports the same and
changes nothing. -/
theorem of_text_inferred_again (text fileName : String) {host : Host} (described : host.Described) :
    ∃ parsed found tree, ofText text fileName = .ok parsed ∧
      SourceTree.inferTypes parsed.fileName host parsed.root parsed.tree = .ok found tree ∧
      (Diagnostic.hasErrors found = false →
        (∀ id written name, tree.arena.Reachable parsed.root id →
          tree.arena.kind? id = some (.definition written name) → written.isSome = true) →
        SourceTree.inferTypes parsed.fileName host parsed.root tree = .ok found tree) := by
  rcases of_text_proper text fileName with ⟨parsed, wasParsed, proper, -⟩
  rcases proper.root with ⟨modules, imports, functions, root⟩
  rcases yields_iff.mp (SourceTree.yields_infer_types_course proper.constructed root
    parsed.fileName host) with ⟨found, tree, ran, signatures, signed, final, course, rfl, rfl⟩
  refine ⟨parsed, final.diagnostics, final.tree, wasParsed, ran, fun clean defined => ?_⟩
  rcases course.endorsed clean with ⟨same, endorsed⟩
  rw [same] at endorsed
  have kept : final.tree.arena.kind? parsed.root = some (.root modules imports functions) :=
    (course.inferred.above parsed.root (Or.inl rfl)).1.trans root
  refine SourceTree.infers_again course.engrafted described kept endorsed ?_
  intro id name below unwritten
  cases defined id none name below unwritten

/-- A module without errors whose tree grows: an operand is widened, a variable is
defined by an assignment and another without a value. The indexer is warned about. -/
def grownText : String :=
  "module m; fn f(int[,] grid) { x := 1; long y; y := 2 + x; grid[x] := y; }"

/-- All variables of a tree have a written type. -/
def writesTypes (tree : SourceTree) : Bool :=
  tree.arena.nodes.all fun node => match node.kind with
    | .definition none _ => false
    | _ => true

theorem written_of_writes_types {tree : SourceTree} (writes : writesTypes tree = true) {id : NodeId}
    {written : Option NodeId} {name : String}
    (found : tree.arena.kind? id = some (.definition written name)) : written.isSome = true := by
  rcases Option.map_eq_some_iff.mp found with ⟨node, held, same⟩
  rcases Array.getElem?_eq_some_iff.mp held with ⟨bound, own⟩
  have fits := Array.all_eq_true.mp writes id.index bound
  rw [own, same] at fits
  cases written with
  | none => cases fits
  | some written => rfl

/-- Inference adds nodes to a module and warns of it, and all its variables then have a
written type. -/
def growsTyped (parsed : ParsedModule) : Bool :=
  match SourceTree.inferTypes parsed.fileName .empty parsed.root parsed.tree with
  | .ok found tree => parsed.tree.arena.size < tree.arena.size && !found.isEmpty &&
      !Diagnostic.hasErrors found && writesTypes tree
  | .error _ _ => false

theorem of_text_inferred_again_grown :
    ∃ parsed found tree, ofText grownText "m.plp" = .ok parsed ∧
      SourceTree.inferTypes parsed.fileName .empty parsed.root parsed.tree = .ok found tree ∧
      parsed.tree.arena.size < tree.arena.size ∧ found ≠ [] ∧
      Diagnostic.hasErrors found = false ∧
      (∀ id written name, tree.arena.Reachable parsed.root id →
        tree.arena.kind? id = some (.definition written name) → written.isSome = true) ∧
      SourceTree.inferTypes parsed.fileName .empty parsed.root tree = .ok found tree := by
  rcases of_text_inferred_again grownText "m.plp" Host.described_empty with
    ⟨parsed, found, tree, wasParsed, ran, again⟩
  have grown : (ofText grownText "m.plp").toOption.any growsTyped = true := by
    decide +kernel
  rw [wasParsed] at grown
  simp only [Except.toOption, Option.any_some, growsTyped, ran, Bool.and_eq_true,
    Bool.not_eq_true', decide_eq_true_eq] at grown
  rcases grown with ⟨⟨⟨larger, warned⟩, clean⟩, writes⟩
  have defined : ∀ id written name, tree.arena.Reachable parsed.root id →
      tree.arena.kind? id = some (.definition written name) → written.isSome = true :=
    fun _ _ _ _ => written_of_writes_types writes
  refine ⟨parsed, found, tree, wasParsed, ran, larger, ?_, clean, defined, again clean defined⟩
  rintro rfl
  cases warned

end ModuleLang.ParsedModule
