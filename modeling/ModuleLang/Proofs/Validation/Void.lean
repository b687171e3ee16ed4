import ModuleLang.Proofs.Typing.Confining
import ModuleLang.Proofs.Validation.Types

/-!
Expressions of type `void` in checked modules. In a module without errors they stand alone
in bodies, or where anything is taken: below a cast to a type that is not looked into,
below a construction, as an argument for a parameter of type `any`, or as what a function
with such a result returns. Otherwise an unknown type next to them hides them.
-/

namespace ModuleLang

namespace Arena

variable {first second : Arena} {environment : Environment} {result : Option Ty}
  {id operand : NodeId} {kind : NodeKind NodeId}

theorem PassesVoid.prolonged {candidates : List Signature} {arguments : List NodeId}
    (passes : first.PassesVoid candidates id arguments operand) (prolongs : first.Prolongs second)
    (types : second.type? = first.type?) : second.PassesVoid candidates id arguments operand := by
  unfold PassesVoid at passes ⊢
  rw [types]
  split at passes
  · exact passes
  · rcases passes with ⟨untyped, other, member, unknown | indexes⟩
    · exact ⟨untyped, other, member, Or.inl unknown⟩
    · exact ⟨untyped, other, member, Or.inr (indexes.prolonged prolongs types)⟩

theorem TakesVoid.prolonged (takes : first.TakesVoid environment result id kind operand)
    (prolongs : first.Prolongs second) (types : second.type? = first.type?) :
    second.TakesVoid environment result id kind operand := by
  cases kind with
  | call name arguments => exact PassesVoid.prolonged takes prolongs types
  | cast target inner source =>
      rcases takes with ⟨wanted, typed, takes⟩
      exact ⟨wanted, types ▸ typed, takes⟩
  | binary operator left right =>
      rcases takes with ⟨looks, unknown⟩
      exact ⟨looks, types ▸ unknown⟩
  | _ => exact takes

end Arena

namespace CheckedModule

namespace Settled

variable {checked : CheckedModule} {host : Host} {modules imports functions : List NodeId}
  {limit : Position} {origin inferred : SourceTree} {reports : List Diagnostic}
  {function operand : NodeId}

/-- The children of the root are headings and functions. -/
theorem not_void_of_root
    (settled : checked.Settled host modules imports functions limit origin inferred reports)
    (inside : operand ∈ (NodeKind.root modules imports functions).children) :
    ¬ checked.tree.arena.IsVoid operand := by
  rintro ⟨⟨held, known, computes⟩, -⟩
  rcases List.mem_append.mp inside with leaf | member
  · rcases settled.leaves operand leaf with ⟨_, same⟩ | ⟨_, same⟩
    all_goals
      cases known.symm.trans same
      cases computes
  · rcases settled.each operand member with ⟨result, name, parameters, block, isFunction⟩
    cases known.symm.trans (settled.completing.prolongs.other isFunction (by simp))
    cases computes

/-- What is of type `void` was so when types were inferred. -/
theorem void_of_function
    (settled : checked.Settled host modules imports functions limit origin inferred reports)
    (member : function ∈ functions) (path : checked.tree.arena.Reachable function operand)
    (void : checked.tree.arena.IsVoid operand) : inferred.arena.IsVoid operand := by
  rcases void with ⟨⟨held, known, computes⟩, typed⟩
  refine ⟨⟨held, ?_, computes⟩, settled.completing.types ▸ typed⟩
  refine (settled.origin_of_function member path known ?_ ?_).2
  · rintro rfl
    cases computes
  · rintro statements rfl
    cases computes

end Settled

/-- Where no error is reported, an expression of type `void` stands in a function, and
below a node that takes it. -/
theorem of_text_voids (text fileName : String) {host : Host} (described : host.Described) :
    ∃ checked modules imports functions, ofText text fileName host = .ok checked ∧
      checked.tree.arena.kind? checked.root = some (.root modules imports functions) ∧
      (checked.hasErrors = false → ∀ id kind operand,
        checked.tree.arena.Reachable checked.root id → checked.tree.arena.kind? id = some kind →
        operand ∈ kind.children → checked.tree.arena.IsVoid operand →
        ∃ function ∈ functions, ∃ signature, checked.tree.arena.Reachable function id ∧
          checked.tree.arena.signature? function = some signature ∧
          checked.tree.arena.TakesVoid
            ⟨checked.fileName, host, functions.filterMap checked.tree.arena.signature?⟩
            signature.result id kind operand) := by
  rcases of_text_settled text fileName host with
    ⟨checked, modules, imports, functions, limit, origin, inferred, reports, ran, settled⟩
  refine ⟨checked, modules, imports, functions, ran, settled.found, ?_⟩
  intro clean id kind operand path found inside void
  have quiet : Diagnostic.hasErrors reports = false := by
    refine List.any_eq_false.mpr fun one member => ?_
    exact List.any_eq_false.mp clean one (settled.reported member)
  have each := (settled.endorsed quiet).confines settled.engrafted settled.above described rfl
  rcases settled.below_root path found with rfl | ⟨childless, -⟩ | ⟨function, member, below⟩
  · exact absurd void (settled.not_void_of_root inside)
  · rw [childless] at inside
    cases inside
  · rcases each function member with ⟨signature, own, confines⟩
    rcases settled.each function member with ⟨result, name, parameters, block, isFunction⟩
    have same := Arena.signature_prolonged settled.completing.prolongs settled.completing.types
      isFunction
    refine ⟨function, member, signature, below, same.trans own, ?_⟩
    by_cases body : ∃ statements, kind = .body statements
    · rcases body with ⟨statements, rfl⟩
      trivial
    · have lasting : kind ≠ .returnFrom none := by
        rintro rfl
        cases inside
      rcases settled.origin_of_function member below found lasting
        (fun statements same => body ⟨statements, same⟩) with ⟨low, was⟩
      have earlier := settled.void_of_function member
        (below.tail (Arena.child_of_kind found inside)) void
      rw [settled.signatures]
      exact (confines function List.mem_cons_self id kind low was operand inside earlier).prolonged
        settled.completing.prolongs settled.completing.types

/-- Operands of type `void`, with the nodes that they are below. -/
def voidOperands (checked : CheckedModule) : List (NodeId × NodeKind NodeId × NodeId) :=
  (checked.tree.arena.descendants checked.root).flatMap fun id =>
    (checked.tree.arena.kind? id).toList.flatMap fun kind =>
      (kind.children.filter fun operand => checked.tree.arena.IsVoid operand).map fun operand =>
        (id, kind, operand)

theorem operand_of_void_operands {checked : CheckedModule} {id operand : NodeId}
    {kind : NodeKind NodeId} (member : (id, kind, operand) ∈ checked.voidOperands) :
    checked.tree.arena.Reachable checked.root id ∧ checked.tree.arena.kind? id = some kind ∧
      operand ∈ kind.children ∧ checked.tree.arena.IsVoid operand := by
  rcases List.mem_flatMap.mp member with ⟨other, below, inside⟩
  rcases List.mem_flatMap.mp inside with ⟨held, found, inside⟩
  rcases List.mem_map.mp inside with ⟨child, offered, same⟩
  cases same
  rcases List.mem_filter.mp offered with ⟨slot, void⟩
  exact ⟨Arena.reachable_of_descendant below, Option.mem_toList.mp found, slot,
    of_decide_eq_true void⟩

/-- Calls without a result: one alone in a body, and one that is returned. -/
def wastedText : String := "module m; fn g() {} fn any f() { g(); return g(); }"

theorem of_text_voids_wasted :
    Host.empty.Described ∧ ∃ checked modules imports functions id kind operand,
      ofText wastedText "m.plp" .empty = .ok checked ∧
      checked.tree.arena.kind? checked.root = some (.root modules imports functions) ∧
      checked.hasErrors = false ∧ checked.tree.arena.Reachable checked.root id ∧
      checked.tree.arena.kind? id = some kind ∧ operand ∈ kind.children ∧
      checked.tree.arena.IsVoid operand ∧
      ∃ function ∈ functions, ∃ signature, checked.tree.arena.Reachable function id ∧
        checked.tree.arena.signature? function = some signature ∧
        checked.tree.arena.TakesVoid
          ⟨checked.fileName, .empty, functions.filterMap checked.tree.arena.signature?⟩
          signature.result id kind operand := by
  rcases of_text_voids wastedText "m.plp" Host.described_empty with
    ⟨checked, modules, imports, functions, ran, found, takes⟩
  have facts : (ofText wastedText "m.plp" .empty).toOption.any (fun checked =>
      !checked.hasErrors && checked.voidOperands.any fun operand =>
        operand.2.1.label == "Return") = true := by
    decide +kernel
  rw [ran] at facts
  simp only [Except.toOption, Option.any_some, Bool.and_eq_true, Bool.not_eq_true',
    List.any_eq_true] at facts
  rcases facts with ⟨clean, ⟨id, kind, operand⟩, member, -⟩
  rcases operand_of_void_operands member with ⟨path, known, inside, void⟩
  exact ⟨Host.described_empty, checked, modules, imports, functions, id, kind, operand, ran, found,
    clean, path, known, inside, void, takes clean id kind operand path known inside void⟩

/-- Calls without a result where anything is taken, and next to a variable of unknown
type. -/
def valuelessText : String :=
  "module m; fn g() {} fn any k() { return g(); } " ++
    "fn f() { println(g()); new Widget(g(), (any) g()); y := null; y := g() + y; }"

/-- Operands of type `void` in a module of which nothing is reported. -/
theorem void_operands_accepted :
    ∃ checked, ofText valuelessText "m.plp" ⟨["Widget"], [], []⟩ = .ok checked ∧
      checked.diagnostics = [] ∧
      ∀ label ∈ ["Call", "ConstructorCall", "Cast", "Binary", "Return"], ∃ id kind operand,
        checked.tree.arena.Reachable checked.root id ∧ checked.tree.arena.kind? id = some kind ∧
        kind.label = label ∧ operand ∈ kind.children ∧ checked.tree.arena.IsVoid operand := by
  rcases of_text_settled valuelessText "m.plp" ⟨["Widget"], [], []⟩ with
    ⟨checked, _, _, _, _, _, _, _, ran, -⟩
  have facts : (ofText valuelessText "m.plp" ⟨["Widget"], [], []⟩).toOption.any (fun checked =>
      checked.diagnostics.isEmpty &&
        ["Call", "ConstructorCall", "Cast", "Binary", "Return"].all fun label =>
          checked.voidOperands.any fun operand => operand.2.1.label == label) = true := by
    decide +kernel
  rw [ran] at facts
  simp only [Except.toOption, Option.any_some, Bool.and_eq_true, List.isEmpty_iff,
    List.all_eq_true, List.any_eq_true, beq_iff_eq] at facts
  rcases facts with ⟨silent, each⟩
  refine ⟨checked, ran, silent, fun label member => ?_⟩
  rcases each label member with ⟨⟨id, kind, operand⟩, inside, same⟩
  rcases operand_of_void_operands inside with ⟨path, known, slot, void⟩
  exact ⟨id, kind, operand, path, known, same, slot, void⟩

end CheckedModule

end ModuleLang
