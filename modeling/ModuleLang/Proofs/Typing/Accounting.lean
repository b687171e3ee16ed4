import ModuleLang.Proofs.Typing.Approval
import ModuleLang.Proofs.Typing.Hierarchy
import ModuleLang.Proofs.Typing.Grafting

/-!
What is true of all types in an accepted module. Whatever the rules hand on from the
visible names and the children of a node to the node is true of every type below the
functions: the parameters are accepted without any name, and the bodies among their
parameters.
-/

namespace ModuleLang

/-- A node has a type that is read as it is written, if it has one. -/
def Arena.Reads (arena : Arena) (host : Host) (id : NodeId) : Prop :=
  host.Reads (arena.type? id)

namespace Inference

variable {limit : Position} {origin tree : SourceTree} {root function : NodeId}
  {environment other : Environment} {names visible : Scopes} {nodes functions : List NodeId}
  {reports all : List Diagnostic} {holds : NodeId → Prop}

/-- Written types and parameters look at nothing but the types of the host. -/
theorem Accepted.anywhere (accepted : Accepted environment names tree nodes reports)
    (engrafted : SourceTree.Engrafted limit origin tree root) (same : other.host = environment.host)
    (plain : ∀ node ∈ nodes, tree.arena.Reachable root node ∧
      (tree.arena.Admitted .type node ∨ tree.arena.Admitted .parameter node)) :
    Accepted other visible tree nodes reports := by
  induction accepted with
  | nil => exact .nil
  | @cons id kind rest inner added later found below rule warned after ihBelow ihAfter =>
      have after := ihAfter fun node member => plain node (List.mem_cons_of_mem _ member)
      rcases plain id List.mem_cons_self with ⟨above, admitted⟩
      have declares : (∃ name ranks, kind = .typeRef name ranks) ∨
          ∃ written name, kind = .parameter written name := by
        rcases admitted with ⟨kind', held, admits⟩ | ⟨kind', held, admits⟩
        all_goals cases found.symm.trans held
        · cases kind <;> first | exact Or.inl ⟨_, _, rfl⟩ | cases admits
        · cases kind <;> first | exact Or.inr ⟨_, _, rfl⟩ | cases admits
      rcases declares with ⟨name, ranks, rfl⟩ | ⟨written, name, rfl⟩
      · cases below
        refine .cons found .nil ?_ warned after
        rcases rule with ⟨type, own, written⟩
        rw [← same] at written
        exact ⟨type, own, written⟩
      · refine .cons found (ihBelow fun node member => ?_) rule warned after
        rw [List.mem_singleton.mp member]
        have slot : (Category.type, written) ∈ (NodeKind.parameter written name).slots := by
          simp [NodeKind.slots]
        refine ⟨above.tail ?_, Or.inl (engrafted.sorted above found slot (by simp))⟩
        exact Arena.child_of_kind found (NodeKind.slot_is_child slot)

theorem bound_empty {arena : Arena} : Bound arena holds .empty := by
  intro frame member entry inside
  rw [List.mem_singleton.mp member] at inside
  cases inside

/-- What is true of parameters is true of the names that a body starts with. -/
theorem bound_parameters {arena : Arena} {parameters : List NodeId}
    (each : ∀ parameter ∈ parameters, holds parameter) :
    Bound arena holds (arena.parameterScopes parameters) := by
  suffices ∀ names, Bound arena holds names →
      Bound arena holds (parameters.foldl arena.withParameter names) from
    this .empty bound_empty
  intro names bound
  induction parameters generalizing names with
  | nil => exact bound
  | cons parameter parameters ih =>
      apply ih fun other member => each other (List.mem_cons_of_mem _ member)
      unfold Arena.withParameter
      split
      · rename_i written name found
        split
        · exact bound.declare ⟨Or.inl ⟨written, found⟩, rfl⟩ (each parameter List.mem_cons_self)
        · exact bound
      · exact bound

/-- The head of a function is accepted wherever the function is. -/
theorem heads_anywhere {result : Option NodeId} {name : String} {parameters : List NodeId}
    {block : NodeId}
    (found : tree.arena.kind? function = some (.function result name parameters block))
    (heads : Accepted { environment with functions := [] } .empty tree
      (result.toList ++ parameters) [])
    (engrafted : SourceTree.Engrafted limit origin tree root)
    (above : tree.arena.Reachable root function) :
    Accepted environment .empty tree (result.toList ++ parameters) [] := by
  refine heads.anywhere engrafted rfl fun node member => ?_
  refine ⟨above.tail ?_, ?_⟩
  · exact Arena.child_of_kind found (List.mem_append_left _ member)
  · rcases List.mem_append.mp member with member | member
    · have slot : (Category.type, node) ∈ (NodeKind.function result name parameters block).slots := by
        simpa [NodeKind.slots] using member
      exact Or.inl (engrafted.sorted above found slot (by simp))
    · exact Or.inr (engrafted.sorted above found (by simp [NodeKind.slots, member]) (by simp))

/-- What is true of the head of a function, and of the names that its body starts with. -/
theorem heads_account {result : Option NodeId} {name : String} {parameters : List NodeId}
    {block : NodeId}
    (found : tree.arena.kind? function = some (.function result name parameters block))
    (heads : Accepted { environment with functions := [] } .empty tree
      (result.toList ++ parameters) [])
    (engrafted : SourceTree.Engrafted limit origin tree root)
    (above : tree.arena.Reachable root function)
    (hands : Hands environment tree holds all [function]) :
    Bound tree.arena holds (tree.arena.parameterScopes parameters) ∧
      Accounts environment tree holds [] (result.toList ++ parameters) := by
  have known : Accepted environment .empty tree (result.toList ++ parameters) [] :=
    heads_anywhere found heads engrafted above
  have declared : result.toList ++ parameters ⊆
      (NodeKind.function result name parameters block).children := List.subset_append_left _ _
  have types := (hands.below found declared).carried bound_empty known (List.nil_subset all)
  exact ⟨bound_parameters fun parameter member => types parameter (List.mem_append_right _ member),
    .of_accepted bound_empty known⟩

/-- What the rules hand on is true of all nodes with types that are accounted for. -/
theorem Hands.of_accounts (hands : Hands environment tree holds all nodes)
    (accounts : Accounts environment tree holds reports nodes) (within : reports ⊆ all) :
    ∀ node ∈ nodes, ∀ id kind, tree.arena.Reachable node id → tree.arena.kind? id = some kind →
      kind.isTyped = true → holds id := by
  intro node member id kind path found typed
  rcases accounts node member id kind path found typed with
    ⟨names, inner, added, bound, entry, subset⟩ | ⟨own, -⟩
  · have early : inner ++ added ⊆ all := List.Subset.trans subset within
    have below : Hands environment tree holds all kind.children :=
      hands.reached fun child inside =>
        ⟨node, member, path.tail (Arena.child_of_kind found inside)⟩
    exact hands.rule member path bound entry early
      (below.carried bound entry.below (List.append_subset.mp early).1)
  · exact own

theorem Endorsed.accounts (endorsed : Endorsed environment tree function reports)
    (engrafted : SourceTree.Engrafted limit origin tree root)
    (above : tree.arena.Reachable root function)
    (hands : Hands environment tree holds all [function]) (within : reports ⊆ all) :
    Accounts environment tree holds reports [function] := by
  rcases endorsed with ⟨found, heads, body⟩
  rename_i result name parameters block last
  rcases heads_account found heads engrafted above hands with ⟨bound, parts⟩
  have inside : [block] ⊆ (NodeKind.function result name parameters block).children := by
    simp [NodeKind.children]
  exact (parts.append (body.carries (hands.below found inside) within bound).2).of_children found rfl
    (List.Subset.refl _)

theorem EndorsedAll.accounts (endorsed : EndorsedAll environment tree functions reports)
    (engrafted : SourceTree.Engrafted limit origin tree root)
    (above : ∀ function ∈ functions, tree.arena.Reachable root function)
    (hands : Hands environment tree holds all functions) (within : reports ⊆ all) :
    Accounts environment tree holds reports functions := by
  rcases endorsed with ⟨each, matched, rfl⟩
  induction matched with
  | nil => exact fun _ member => by cases member
  | @cons function said functions each endorsed matched ih =>
      rw [List.flatten_cons] at within ⊢
      have first := endorsed.accounts engrafted (above function List.mem_cons_self)
        (hands.part (by simp)) (List.append_subset.mp within).1
      have rest := ih (fun other member => above other (List.mem_cons_of_mem _ member))
        (hands.part (by simp)) (List.append_subset.mp within).2
      exact first.append rest

end Inference

/-!
Calls in an accepted module. A call is excused for having no candidate where an argument
is of unknown type, or where something was reported about the arguments. In a module
without errors only warnings are reported, and a warning is always about an indexer of an
array of several dimensions.
-/

/-- An element of an array of several dimensions is asked for below a node. -/
def Arena.IndexesDimensions (arena : Arena) (node : NodeId) : Prop :=
  ∃ id target index element rank, arena.Reachable node id ∧
    arena.kind? id = some (.indexAccess target index) ∧
    arena.type? target = some (.array element rank) ∧ rank ≠ 1

/-- A call whose arguments have the types of a candidate has the result of the first such
candidate. There is no such candidate only if an indexer was warned about below an
argument, and then the call has no type. -/
def Arena.Dispatches (arena : Arena) (candidates : List Signature) (id : NodeId)
    (arguments : List NodeId) : Prop :=
  match candidates.find? fun signature => signature.accepts (arguments.map arena.type?) with
  | some signature => arena.type? id = signature.result
  | none => arena.type? id = none ∧ ∃ argument ∈ arguments, arena.IndexesDimensions argument

namespace Inference

variable {limit : Position} {environment : Environment} {origin tree : SourceTree}
  {root function id : NodeId} {names : Scopes} {functions nodes arguments : List NodeId}
  {reports inner added : List Diagnostic}

/-- Warnings are about indexers. -/
theorem Accepted.indexes_dimensions (accepted : Accepted environment names tree nodes reports)
    (warned : reports ≠ []) : ∃ node ∈ nodes, tree.arena.IndexesDimensions node := by
  induction accepted with
  | nil => exact absurd rfl warned
  | @cons id kind rest inner added later found below rule cautioned after ihBelow ihAfter =>
      by_cases here : inner ++ added = []
      · rw [here, List.nil_append] at warned
        rcases ihAfter warned with ⟨node, member, indexes⟩
        exact ⟨node, List.mem_cons_of_mem _ member, indexes⟩
      · refine ⟨id, List.mem_cons_self, ?_⟩
        by_cases quiet : inner = []
        · unfold Cautioned at cautioned
          split at cautioned
          · rename_i warns
            cases kind with
            | indexAccess target index =>
                simp only [NodeKind.warns, elementWarns] at warns
                split at warns
                · rename_i element rank held
                  exact ⟨id, target, index, element, rank, .refl, found, held, by simpa using warns⟩
                · cases warns
            | _ => cases warns
          · exact absurd (by rw [quiet, cautioned, List.nil_append]) here
        · rcases ihBelow quiet with ⟨child, slot, low, target, index, element, rank, path, rest⟩
          rw [← Arena.children_of_kind found] at slot
          exact ⟨low, target, index, element, rank, .below_child slot path, rest⟩

/-- An accepted call goes to a candidate if all arguments have types. -/
theorem dispatches_of_entry {name : String}
    (entry : Accepted.Entry environment names tree id (.call name arguments) inner added)
    (typed : ∀ argument ∈ arguments, (tree.arena.type? argument).isSome = true) :
    tree.arena.Dispatches (candidates environment name) id arguments := by
  unfold Arena.Dispatches
  rcases call_result_cases entry.rule with ⟨signature, found, own⟩ | ⟨absent, own, -, said | unknown⟩
  · rw [found]
    exact own
  · rw [absent]
    refine ⟨own, entry.below.indexes_dimensions ?_⟩
    rintro rfl
    cases said
  · rcases List.any_eq_true.mp unknown with ⟨type, member, none⟩
    rcases List.mem_map.mp member with ⟨argument, inside, rfl⟩
    have some := typed argument inside
    rw [Option.isNone_iff_eq_none.mp none] at some
    cases some

/-- All calls in an accepted module go to a candidate whose arguments have types. -/
theorem EndorsedAll.dispatches (endorsed : EndorsedAll environment tree functions reports)
    (engrafted : SourceTree.Engrafted limit origin tree root)
    (above : ∀ function ∈ functions, tree.arena.Reachable root function) {name : String}
    (member : function ∈ functions) (path : tree.arena.Reachable function id)
    (found : tree.arena.kind? id = some (.call name arguments))
    (typed : ∀ argument ∈ arguments, (tree.arena.type? argument).isSome = true) :
    tree.arena.Dispatches (candidates environment name) id arguments := by
  have hands : Hands environment tree (fun _ => True) reports functions :=
    ⟨fun _ _ _ _ _ _ => trivial, fun _ _ _ => trivial, fun _ _ _ _ _ _ _ => trivial⟩
  rcases endorsed.accounts engrafted above hands (List.Subset.refl _) function member id _ path found
    rfl with ⟨_, _, _, _, entry, _⟩ | ⟨_, _, _, other, _⟩
  · exact dispatches_of_entry entry typed
  · cases other

end Inference

end ModuleLang
