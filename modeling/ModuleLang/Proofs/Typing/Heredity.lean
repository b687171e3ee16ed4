import ModuleLang.Proofs.Host
import ModuleLang.Proofs.Typing.Accounting

/-!
What is true of all types that a host and a module offer is true of all types that
follow from them. A rule gives the type of a child, an element or an array of it, or a
type that is built in, written or offered; it gives no type where a child has none, or
where something was reported.
-/

namespace ModuleLang

/-- What is true of the types that a host offers, and closed under the rules. `all` are
the reports that may have been made. -/
structure Hereditary (host : Host) (holds : Option Ty → Prop) (all : List Diagnostic) : Prop where
  literal : ∀ value : Literal, holds (some value.type)
  nothing : holds (some .void)
  written : ∀ {name ranks found}, host.written? name ranks = some found → holds (some found)
  array : ∀ {name ranks found}, host.written? name ranks = some found →
    holds (some (.array found 1))
  element : ∀ {element}, holds (some (.array element 1)) → holds (some element)
  member : ∀ {owner name type}, host.member? owner name = some type → holds (some type)
  function : ∀ signature ∈ host.functions, holds signature.result
  intrinsic : ∀ signature ∈ Signature.intrinsics, holds signature.result
  reported : all ≠ [] → holds none

section Hosts

variable {host : Host} {all : List Diagnostic}

theorem Host.reads_of_back {type : Ty} (readable : host.ReadsBack type) : host.Reads (some type) :=
  if_known_some (Or.inr (Or.inr readable))

/-- Elements are read as their arrays are. -/
theorem Host.reads_back_of_array {element : Ty} {rank : Nat}
    (readable : host.ReadsBack (.array element rank)) : host.ReadsBack element := by
  have written : host.written? element.layers.1.text (element.layers.2 ++ [rank]) =
      some (.array element rank) := readable
  rcases Option.map_eq_some_iff.mp written with ⟨base, found, same⟩
  unfold Ty.layered at same
  rw [List.foldl_append] at same
  injection same with same
  exact Option.map_eq_some_iff.mpr ⟨base, found, same⟩

theorem Host.reads_back_array {element : Ty} (readable : host.ReadsBack element) (rank : Nat) :
    host.ReadsBack (.array element rank) := by
  rcases Option.map_eq_some_iff.mp readable with ⟨base, found, same⟩
  refine Option.map_eq_some_iff.mpr ⟨base, found, ?_⟩
  unfold Ty.layered at same ⊢
  rw [show (Ty.array element rank).layers.2 = element.layers.2 ++ [rank] from rfl,
    List.foldl_append, same]
  rfl

/-- All types that follow from those of a resolved host are read as they print. -/
theorem hereditary_reads (described : host.Described) : Hereditary host host.Reads all where
  literal value := by
    cases value with
    | null => exact if_known_some (Or.inl rfl)
    | _ => exact Host.reads_of_back rfl
  nothing := if_known_some (Or.inr (Or.inl rfl))
  written written := Host.reads_of_back (Host.reads_back_of_written written)
  array written := Host.reads_of_back (Host.reads_back_array (Host.reads_back_of_written written) 1)
  element {element} reads := by
    rcases reads _ rfl with null | void | readable
    · cases null
    · cases void
    · exact Host.reads_of_back (Host.reads_back_of_array readable)
  member offered := Host.reads_of_back (described.member offered)
  function signature offered := by
    rcases described.function offered with ⟨type, same, rfl | readable⟩
    · rw [same]
      exact if_known_some (Or.inr (Or.inl rfl))
    · rw [same]
      exact Host.reads_of_back readable
  intrinsic := by
    have void : host.Reads (some .void) := if_known_some (Or.inr (Or.inl rfl))
    have string : host.Reads (some .string) := Host.reads_of_back rfl
    have int : host.Reads (some .int) := Host.reads_of_back rfl
    have array : host.Reads (some (.array .any 1)) := Host.reads_of_back rfl
    simp only [Signature.intrinsics, List.forall_mem_cons]
    exact ⟨void, void, string, string, int, array, List.forall_mem_nil _⟩
  reported _ := if_known_none _

/-- Types are known while nothing is reported. -/
theorem hereditary_known (described : host.Described) :
    Hereditary host (fun type => type.isSome = true) [] where
  literal _ := rfl
  nothing := rfl
  written _ := rfl
  array _ := rfl
  element _ := rfl
  member _ := rfl
  function signature offered := by
    rcases described.function offered with ⟨type, same, -⟩
    rw [same]
    rfl
  intrinsic := by decide
  reported some := absurd rfl some

end Hosts

theorem UnaryOperator.result_of_taken {operator : UnaryOperator} {operand : Ty}
    (taken : (operator.result operand).2 = true) :
    (operator.result operand).1 = some .bool ∨ (operator.result operand).1 = some operand := by
  unfold result at taken ⊢
  split at taken
  · exact Or.inl rfl
  · split at taken
    · rename_i numeric
      rw [if_pos numeric]
      exact Or.inr rfl
    · cases taken

namespace Inference

theorem int_of_length {owner type : Ty} {name : String}
    (found : lengthMember? owner name = some type) : type = .int := by
  unfold lengthMember? at found
  grind

section Rules

variable {environment : Environment} {names : Scopes} {tree : SourceTree} {id : NodeId}
  {kind : NodeKind NodeId} {inner added all : List Diagnostic} {holds : Option Ty → Prop}

/-- Calls go to functions of the module, to intrinsic ones or to those of the host. -/
theorem candidate_cases {name : String} {signature : Signature}
    (candidate : signature ∈ candidates environment name) :
    signature ∈ environment.functions ∨ signature ∈ Signature.intrinsics ∨
      signature ∈ environment.host.functions := by
  unfold candidates at candidate
  split at candidate
  · split at candidate
    · rename_i intrinsic found
      rw [List.mem_singleton.mp candidate]
      exact Or.inr (Or.inl (List.mem_of_find?_eq_some found))
    · exact Or.inr (Or.inr (List.mem_of_mem_filter candidate))
  · exact Or.inl (List.mem_of_mem_filter candidate)

/-- What is true of the results of all functions of a module is true of that of a call. -/
theorem hereditary_candidate (hereditary : Hereditary environment.host holds all)
    (results : ∀ signature ∈ environment.functions, holds signature.result) {name : String}
    {signature : Signature} (candidate : signature ∈ candidates environment name) :
    holds signature.result := by
  rcases candidate_cases candidate with own | intrinsic | offered
  · exact results signature own
  · exact hereditary.intrinsic signature intrinsic
  · exact hereditary.function signature offered

theorem hereditary_common (hereditary : Hereditary environment.host holds all)
    {category : OperatorCategory} {left right common : Option Ty} (first : holds left)
    (second : holds right) (result : commonResult category left right = some common) :
    holds common := by
  have bool : holds (some .bool) := hereditary.literal (.bool true)
  have kept : ∀ {one other : Ty}, category.operandTypes? left right = some (one, other) →
      holds (some one) := by
    intro one other known
    cases category with
    | logical =>
        cases known
        cases left with
        | none => exact bool
        | some type => exact first
    | _ =>
        rcases Option.bind_eq_some_iff.mp known with ⟨type, rfl, rest⟩
        rcases Option.map_eq_some_iff.mp rest with ⟨_, -, same⟩
        cases same
        exact first
  rcases common_result_cases result with ⟨unknown, rfl⟩ | ⟨one, other, known, rfl, -⟩
  · -- One of the operands is of unknown type.
    cases left with
    | none => exact first
    | some type =>
        cases right with
        | none => exact second
        | some other => cases category <;> cases unknown
  · exact kept known

/-- The rules hand it on from the visible names and the children of a node. -/
theorem hereditary_rule (hereditary : Hereditary environment.host holds all)
    (results : ∀ signature ∈ environment.functions, holds signature.result)
    (visible : ∀ name binding, kind = .member name → names.lookup name = some binding →
      holds binding.type)
    (entry : Accepted.Entry environment names tree id kind inner added) (within : inner ++ added ⊆ all)
    (sorted : ∀ {child}, (Category.type, child) ∈ kind.slots → tree.arena.Admitted .type child)
    (children : ∀ child ∈ kind.children, holds (tree.arena.type? child)) :
    holds (tree.arena.type? id) := by
  rcases entry with ⟨found, below, rule, warned⟩
  have bool : holds (some .bool) := hereditary.literal (.bool true)
  have int : holds (some .int) := hereditary.literal (.int 0)
  have reported : inner ++ added ≠ [] → holds none := by
    intro some
    apply hereditary.reported
    rintro rfl
    exact some (List.subset_nil.mp within)
  generalize tree.arena.type? id = own at rule ⊢
  cases kind with
  | literal value =>
      cases rule
      exact hereditary.literal value
  | member name =>
      rcases rule with ⟨binding, seen, rfl⟩
      exact visible name binding rfl seen
  | memberAccess owner name =>
      have first := children owner (by simp [NodeKind.children])
      simp only [NodeKind.Accepts] at rule
      cases known : tree.arena.type? owner with
      | none =>
          rw [known] at rule first
          cases rule
          exact first
      | some type =>
          rw [known] at rule
          rcases Option.map_eq_some_iff.mp rule with ⟨member, resolved, rfl⟩
          rcases (Option.orElse_eq_some _ _ _).mp resolved with length | ⟨-, offered⟩
          · rw [int_of_length length]
            exact int
          · exact hereditary.member offered
  | indexAccess target index =>
      have first := children target (by simp [NodeKind.children])
      have rule := rule.2
      simp only [NodeKind.warns] at warned
      generalize tree.arena.type? target = targetType at first rule warned
      cases targetType with
      | none =>
          cases rule
          exact first
      | some type =>
          cases type with
          | array element rank =>
              cases rule
              by_cases one : rank = 1
              · subst one
                exact hereditary.element first
              · rw [elementWarns, show (rank != 1) = true by simpa using one] at warned
                rcases warned with ⟨span, -, rfl⟩
                rw [if_neg one]
                exact reported (by simp)
          | _ => cases rule
  | binary operator left right =>
      rcases rule with ⟨common, result, rfl⟩
      split
      · exact bool
      · exact hereditary_common hereditary (children left (by simp [NodeKind.children]))
          (children right (by simp [NodeKind.children])) result
  | unary operator operand =>
      have first := children operand (by simp [NodeKind.children])
      simp only [NodeKind.Accepts] at rule
      generalize tree.arena.type? operand = type at first rule
      cases type with
      | none =>
          cases rule
          split
          · exact bool
          · exact first
      | some type =>
          simp only [unaryResult] at rule
          split at rule
          · rename_i taken
            cases rule
            rcases UnaryOperator.result_of_taken taken with same | same
            · rw [same]
              exact bool
            · rw [same]
              exact first
          · cases rule
  | call name arguments =>
      rcases call_result_cases rule with ⟨signature, accepts, rfl⟩ | ⟨-, rfl, -, said | unknown⟩
      · exact hereditary_candidate hereditary results (List.mem_of_find?_eq_some accepts)
      · apply reported
        intro quiet
        rw [List.append_eq_nil_iff.mp quiet |>.1] at said
        cases said
      · rcases List.any_eq_true.mp unknown with ⟨type, member, none⟩
        rcases List.mem_map.mp member with ⟨argument, inside, rfl⟩
        have own := children argument inside
        rw [Option.isNone_iff_eq_none.mp none] at own
        exact own
  | construct written arguments =>
      cases rule
      exact children written (by simp [NodeKind.children])
  | newArray element length =>
      rcases rule with ⟨-, rfl⟩
      have slot : (Category.type, element) ∈ (NodeKind.newArray element length).slots := by
        simp [NodeKind.slots]
      rcases sorted slot with ⟨held, known, admits⟩
      cases below with
      | cons found _ typed _ _ =>
          cases known.symm.trans found
          cases held with
          | typeRef name ranks =>
              rcases typed with ⟨type, same, written⟩
              rw [same] at written ⊢
              exact hereditary.array written
          | _ => cases admits
  | cast target operand source =>
      rcases rule with ⟨-, rfl, -⟩
      exact children target (by simp [NodeKind.children])
  | typeRef name ranks =>
      rcases rule with ⟨type, rfl, written⟩
      exact hereditary.written written
  | definition written name =>
      cases written with
      | none => cases rule
      | some written =>
          cases rule
          exact children written (by simp [NodeKind.children])
  | parameter written name =>
      cases rule
      exact children written (by simp [NodeKind.children])
  | _ => cases rule

end Rules

section Functions

variable {limit : Position} {environment : Environment} {origin tree : SourceTree}
  {root function : NodeId} {functions nodes : List NodeId} {reports all : List Diagnostic}
  {holds : Option Ty → Prop}

/-- The result of a function is written, or it returns nothing. -/
theorem Endorsed.result (endorsed : Endorsed environment tree function reports)
    (engrafted : SourceTree.Engrafted limit origin tree root)
    (above : tree.arena.Reachable root function)
    (hereditary : Hereditary environment.host holds all) {signature : Signature}
    (own : tree.arena.signature? function = some signature) : holds signature.result := by
  rcases endorsed with ⟨found, heads, -⟩
  rename_i result name parameters block last
  unfold Arena.signature? at own
  rw [found] at own
  cases own
  cases result with
  | none => exact hereditary.nothing
  | some written =>
      have slot : (Category.type, written) ∈
          (NodeKind.function (some written) name parameters block).slots := by
        simp [NodeKind.slots]
      rcases engrafted.sorted above found slot (by simp) with ⟨kind, known, admits⟩
      have member : written ∈ (some written).toList ++ parameters := by simp
      rcases heads.within member .refl with ⟨held, inner, added, entry, -⟩
      cases known.symm.trans entry.found
      cases kind with
      | typeRef name ranks =>
          rcases entry.rule with ⟨type, same, read⟩
          change holds (tree.arena.type? written)
          rw [same] at read ⊢
          exact hereditary.written read
      | _ => cases admits

theorem EndorsedAll.results (endorsed : EndorsedAll environment tree functions reports)
    (engrafted : SourceTree.Engrafted limit origin tree root)
    (above : ∀ function ∈ functions, tree.arena.Reachable root function)
    (hereditary : Hereditary environment.host holds all) :
    ∀ signature ∈ functions.filterMap tree.arena.signature?, holds signature.result := by
  intro signature member
  rcases List.mem_filterMap.mp member with ⟨function, inside, own⟩
  rcases endorsed with ⟨each, matched, -⟩
  rcases partner_of_member matched.flip inside with ⟨said, -, endorsed⟩
  exact endorsed.result engrafted (above function inside) hereditary own

/-- What is hereditary is handed on to all nodes below the root. -/
theorem hands_of_hereditary (hereditary : Hereditary environment.host holds all)
    (results : ∀ signature ∈ environment.functions, holds signature.result)
    (engrafted : SourceTree.Engrafted limit origin tree root)
    (above : ∀ node ∈ nodes, tree.arena.Reachable root node) (unknown : holds none) :
    Hands environment tree (fun id => holds (tree.arena.type? id)) all nodes where
  rule member path bound entry within children := by
    apply hereditary_rule hereditary results _ entry within
      (fun slot => engrafted.sorted ((above _ member).trans path) entry.found slot nofun) children
    intro name binding _ seen
    rw [← (bound.lookup seen).1.2]
    exact (bound.lookup seen).2
  introduce held typed own := by
    rw [held] at own
    rw [typed]
    exact own
  guess _ _ _ _ untyped _ _ := by
    rw [untyped]
    exact unknown

end Functions

end Inference

/-!
Types that remain unknown although nothing is reported. Every rule that gives no type
either reports something or was given an operand without a type, so that all of them go
back to a variable whose first value is `null`, which tells no type.
-/

/-- The type of a node in a function is unknown, and this goes back to a variable that
was introduced by `null`: the node defines such a variable, or one with a value of a type
that is untold itself, or it means a variable of an untold type, or it is an expression
with an operand of an untold type. -/
inductive Arena.Untold (arena : Arena) (function : NodeId) : NodeId → Prop
  | null {statement target value name} (above : arena.Reachable function statement)
      (assigns : arena.kind? statement = some (.assign .assign target value))
      (defines : arena.kind? target = some (.definition none name))
      (empty : arena.type? value = some .null) (untyped : arena.type? target = none) :
      Untold arena function target
  | value {statement target value name} (above : arena.Reachable function statement)
      (assigns : arena.kind? statement = some (.assign .assign target value))
      (defines : arena.kind? target = some (.definition none name))
      (cause : Untold arena function value) (untyped : arena.type? target = none) :
      Untold arena function target
  | member {id binder name} (found : arena.kind? id = some (.member name))
      (defines : arena.kind? binder = some (.definition none name))
      (cause : Untold arena function binder) (untyped : arena.type? id = none) :
      Untold arena function id
  | operand {id operand kind} (found : arena.kind? id = some kind)
      (computes : kind.isExpression = true) (inside : operand ∈ kind.children)
      (cause : Untold arena function operand) (untyped : arena.type? id = none) :
      Untold arena function id

namespace Arena.Untold

variable {arena : Arena} {function id : NodeId} {kind : NodeKind NodeId}

theorem kind_cases (untold : arena.Untold function id) (found : arena.kind? id = some kind) :
    kind.isExpression = true ∨ ∃ name, kind = .definition none name := by
  cases untold with
  | null _ _ defines | value _ _ defines =>
      cases found.symm.trans defines
      exact Or.inr ⟨_, rfl⟩
  | member known =>
      cases found.symm.trans known
      exact Or.inl rfl
  | operand known computes =>
      cases found.symm.trans known
      exact Or.inl computes

theorem not_written (untold : arena.Untold function id) : ¬ arena.Admitted .type id := by
  rintro ⟨kind, found, admits⟩
  rcases untold.kind_cases found with computes | ⟨name, rfl⟩
  · cases kind <;> first | cases computes; done | cases admits
  · cases admits

theorem not_parameter {written : NodeId} {name : String} (untold : arena.Untold function id) :
    arena.kind? id ≠ some (.parameter written name) := by
  intro found
  rcases untold.kind_cases found with computes | ⟨_, same⟩
  · cases computes
  · cases same

end Arena.Untold

namespace Inference

variable {limit : Position} {environment : Environment} {origin tree : SourceTree}
  {root function id : NodeId} {kind : NodeKind NodeId}

/-- A node has a type, or it is known why it has none. -/
def Explained (tree : SourceTree) (function id : NodeId) : Prop :=
  (tree.arena.type? id).isSome = true ∨ tree.arena.Untold function id

/-- An unknown type comes from a name or from a child, unless something is reported. -/
theorem unknown_cases {names : Scopes} (described : environment.host.Described)
    (results : ∀ signature ∈ environment.functions, signature.result.isSome = true)
    (entry : Accepted.Entry environment names tree id kind [] [])
    (sorted : ∀ {child}, (Category.type, child) ∈ kind.slots → tree.arena.Admitted .type child)
    (unknown : tree.arena.type? id = none) :
    (∃ name binding, kind = .member name ∧ names.lookup name = some binding ∧
      binding.type = none) ∨ ∃ child ∈ kind.children, tree.arena.type? child = none := by
  by_contra none
  rw [not_or] at none
  have known := hereditary_rule (hereditary_known described) results (fun name binding same seen => by
    by_contra untyped
    exact none.1 ⟨name, binding, same, seen, Option.not_isSome_iff_eq_none.mp untyped⟩)
    entry (List.nil_subset _) sorted fun child member => by
      by_contra untyped
      exact none.2 ⟨child, member, Option.not_isSome_iff_eq_none.mp untyped⟩
  rw [unknown] at known
  cases known

/-- Where nothing is reported, the rules hand on why types are unknown. -/
theorem hands_explained (described : environment.host.Described)
    (results : ∀ signature ∈ environment.functions, signature.result.isSome = true)
    (engrafted : SourceTree.Engrafted limit origin tree root)
    (above : tree.arena.Reachable root function) :
    Hands environment tree (Explained tree function) [] [function] where
  rule {first names id kind inner added} member path bound entry within children := by
    rw [List.mem_singleton.mp member] at path
    rcases List.append_eq_nil_iff.mp (List.subset_nil.mp within) with ⟨rfl, rfl⟩
    have sorted : ∀ {child}, (Category.type, child) ∈ kind.slots →
        tree.arena.Admitted .type child := fun slot =>
      engrafted.sorted (above.trans path) entry.found slot nofun
    cases unknown : tree.arena.type? id with
    | some type => exact Or.inl (by rw [unknown]; rfl)
    | none =>
        refine Or.inr ?_
        rcases unknown_cases described results entry sorted unknown with
          ⟨name, binding, rfl, seen, untyped⟩ | ⟨child, inside, untyped⟩
        · rcases bound.lookup seen with ⟨⟨declares, same⟩, explained⟩
          have cause := explained.resolve_left (by simp [same, untyped])
          rcases declares with ⟨written, declares⟩ | ⟨written, declares⟩
          · exact absurd declares cause.not_parameter
          · rcases cause.kind_cases declares with computes | ⟨_, same⟩
            · cases computes
            · cases same
              exact .member entry.found declares cause unknown
        · have cause := (children child inside).resolve_left (by simp [untyped])
          have solid : (Category.type, child) ∉ kind.slots := fun slot =>
            cause.not_written (sorted slot)
          have rule := entry.rule
          refine .operand entry.found ?_ inside cause unknown
          cases kind with
          | definition written name =>
              cases written with
              | none => cases inside
              | some written =>
                  rw [List.mem_singleton.mp inside] at solid
                  exact absurd (by simp [NodeKind.slots]) solid
          | parameter written name =>
              rw [List.mem_singleton.mp inside] at solid
              exact absurd (by simp [NodeKind.slots]) solid
          | typeRef => cases inside
          | _ => first | rfl | cases rule
  introduce _ typed _ := Or.inl (by rw [typed]; rfl)
  guess member path assigns defines untyped explained empty := by
    rw [List.mem_singleton.mp member] at path
    refine Or.inr ?_
    rename_i target value name
    cases known : tree.arena.type? value with
    | none => exact .value path assigns defines (explained.resolve_left (by simp [known])) untyped
    | some type =>
        cases empty type known
        exact .null path assigns defines known untyped

/-- In a function of which nothing is reported all types are explained, and a variable
without a written type has an untold one. -/
theorem Endorsed.explained (endorsed : Endorsed environment tree function [])
    (described : environment.host.Described)
    (results : ∀ signature ∈ environment.functions, signature.result.isSome = true)
    (engrafted : SourceTree.Engrafted limit origin tree root)
    (above : tree.arena.Reachable root function) (path : tree.arena.Reachable function id)
    (found : tree.arena.kind? id = some kind) (typed : kind.isTyped = true) :
    Explained tree function id ∧
      ∀ name, kind = .definition none name → tree.arena.Untold function id := by
  have hands := hands_explained described results engrafted above
  have accounts := endorsed.accounts engrafted above hands (List.Subset.refl _)
  have explained := hands.of_accounts accounts (List.Subset.refl _) function (List.mem_singleton_self _)
    id kind path found typed
  refine ⟨explained, ?_⟩
  rintro name rfl
  rcases accounts function (List.mem_singleton_self _) id _ path found typed with
    ⟨_, _, _, _, entry, _⟩ | ⟨_, written, _, same, untyped⟩
  · cases entry.rule
  · cases same
    exact explained.resolve_left (by simp [untyped rfl])

end Inference

end ModuleLang
