import ModuleLang.Proofs.Typing.Accounting
import ModuleLang.Proofs.Typing.Heredity
import ModuleLang.Proofs.Typing.Recording

/-!
Operands of type `void`. Every rule looks at the types of its operands by itself:
operators and indexers refuse `void`, while whatever takes anything takes `void` as well.
No type that is written or offered is `void`, so no variable, member or element is of
this type, and no parameter asks for it.
-/

namespace ModuleLang

section Types

/-- Only what takes anything takes `void`, or what is `void` itself. -/
theorem any_of_void_fits {slot : Ty} (fits : assignability .void slot = .exact)
    (solid : slot ≠ .void) : slot = .any := by
  unfold assignability at fits
  split at fits
  · rename_i same
    exact same.resolve_left (Ne.symm solid)
  · split at fits
    · rename_i both
      cases both.1
    · split at fits
      · rename_i untyped
        cases untyped
      · split at fits <;> cases fits

theorem opaque_of_void_casts {wanted : Ty} (casts : Ty.castsTo .void wanted = true)
    (solid : wanted ≠ .void) : wanted.isOpaque = true := by
  cases wanted with
  | any | named => rfl
  | void => exact absurd rfl solid
  | _ => cases casts

theorem OperatorCategory.rejects_void {category : OperatorCategory} {left right : Ty}
    (void : left = .void ∨ right = .void) : category.operandFit left right = .reject := by
  have numbers : (left.isNumeric && right.isNumeric) = false := by
    rcases void with rfl | rfl
    · rfl
    · exact Bool.and_false _
  have integers : (left.isInteger && right.isInteger) = false := by
    rcases void with rfl | rfl
    · rfl
    · exact Bool.and_false _
  have bools : ¬ (left = .bool ∧ right = .bool) := by
    rintro ⟨rfl, rfl⟩
    simp at void
  cases category with
  | arithmetic | comparison => simp only [operandFit, numbers, Bool.false_eq_true, if_false]
  | equality => exact if_pos void
  | logical => exact if_neg bools
  | bitwise => simp only [operandFit, if_neg bools, integers, Bool.false_eq_true, if_false]

/-- Operators refuse `void`, unless they do not look at their operands because the other
one is of unknown type. -/
theorem common_of_void {category : OperatorCategory} {left right common : Option Ty}
    (rule : commonResult category left right = some common)
    (void : left = some .void ∨ right = some .void) :
    category ≠ .logical ∧ (left = none ∨ right = none) := by
  rcases common_result_cases rule with ⟨unknown, -⟩ | ⟨first, second, known, -, fit⟩
  · refine ⟨?_, ?_⟩
    · rintro rfl
      cases unknown
    · cases left with
      | none => exact Or.inl rfl
      | some first =>
          cases right with
          | none => exact Or.inr rfl
          | some second => cases category <;> cases unknown
  · have held : first = .void ∨ second = .void := by
      cases category with
      | logical =>
          cases known
          exact void.imp (fun same => by rw [same]; rfl) fun same => by rw [same]; rfl
      | _ =>
          rcases Option.bind_eq_some_iff.mp known with ⟨type, rfl, rest⟩
          rcases Option.map_eq_some_iff.mp rest with ⟨other, rfl, same⟩
          cases same
          exact void.imp Option.some.inj Option.some.inj
    rw [OperatorCategory.rejects_void held] at fit
    rcases fit with fit | ⟨fit, -⟩ <;> cases fit

theorem unary_of_void (operator : UnaryOperator) : unaryResult operator (some .void) = none := by
  cases operator <;> rfl

end Types

section Hosts

variable {host : Host}

theorem Host.Described.member_of_void (described : host.Described) (name : String) :
    host.member? .void name = none := by
  rcases described with ⟨descriptions, resolved⟩
  rcases HostDescriptions.resolve_parts resolved with ⟨types, -, members⟩
  refine Option.eq_none_iff_forall_ne_some.mpr fun type offered => ?_
  rcases List.lookup_eq_some_iff.mp offered with ⟨before, after, same, -⟩
  rcases members ((.void, name), type) (by rw [same]; simp) with ⟨member, found⟩
  rcases except_of_bind found with ⟨owner, read, found⟩
  rcases except_of_bind found with ⟨_, -, found⟩
  cases found
  exact (Host.solid_of_reads_back (HostDescriptions.reads_back_of_resolve_type types read)).1 rfl

theorem memberResult_of_void (described : host.Described) (name : String) :
    memberResult host name (some .void) = none := by
  have offered : (Inference.lengthMember? .void name <|> host.member? .void name) = none :=
    described.member_of_void name
  exact congrArg (Option.map some) offered

/-- All parameters are of known types, and none is of type `void`. -/
def Signature.Solid (signature : Signature) : Prop :=
  ∀ parameter ∈ signature.parameters, ∃ type, parameter = some type ∧ type ≠ .void

theorem Signature.solid_known {name : String} {parameters : List Ty} {result : Ty}
    (each : ∀ type ∈ parameters, type ≠ .void) : (known name parameters result).Solid := by
  intro parameter member
  rcases List.mem_map.mp member with ⟨type, inside, rfl⟩
  exact ⟨type, rfl, each type inside⟩

theorem Signature.solid_of_intrinsic :
    ∀ signature ∈ intrinsics, signature.Solid := by
  simp only [intrinsics, List.forall_mem_cons]
  refine ⟨?_, ?_, ?_, ?_, ?_, ?_, List.forall_mem_nil _⟩
  all_goals exact solid_known (by simp)

theorem Host.Described.solid (described : host.Described) {signature : Signature}
    (offered : signature ∈ host.functions) : signature.Solid := by
  rcases described with ⟨descriptions, resolved⟩
  rcases HostDescriptions.resolve_parts resolved with ⟨types, functions, -⟩
  rcases functions signature offered with ⟨function, found⟩
  rcases except_of_bind found with ⟨parameters, read, found⟩
  have each : ∀ type ∈ parameters, type ≠ .void := by
    intro type member
    rcases except_of_mapM read type member with ⟨name, -, known⟩
    exact (Host.solid_of_reads_back
      (HostDescriptions.reads_back_of_resolve_type types known)).1
  split at found
  · cases found
    exact Signature.solid_known each
  · rcases except_of_bind found with ⟨result, -, found⟩
    cases found
    exact Signature.solid_known each

end Hosts

namespace Arena

/-- An expression of type `void`. -/
def IsVoid (arena : Arena) (id : NodeId) : Prop :=
  (∃ kind, arena.kind? id = some kind ∧ kind.isExpression = true) ∧ arena.type? id = some .void

instance (arena : Arena) (id : NodeId) : Decidable (arena.IsVoid id) :=
  decidable_of_iff ((arena.kind? id).any NodeKind.isExpression = true ∧
    arena.type? id = some .void) <| by
    unfold IsVoid
    rw [Option.any_eq_true]

/-- An argument of type `void` may be passed: the first candidate that accepts the
arguments takes anything in its place. Without such a candidate the call has no type, as
an argument has none, or an indexer was warned about below an argument. -/
def PassesVoid (arena : Arena) (candidates : List Signature) (id : NodeId)
    (arguments : List NodeId) (argument : NodeId) : Prop :=
  match candidates.find? fun signature => signature.accepts (arguments.map arena.type?) with
  | some signature => ∀ index : Nat, arguments[index]? = some argument →
      signature.parameters[index]? = some (some .any)
  | none => arena.type? id = none ∧
      ∃ other ∈ arguments, arena.type? other = none ∨ arena.IndexesDimensions other

/-- An expression of type `void` may stand below a node: alone in a body, or where
anything is taken. A binary operator that needs both types does not look at one of them if
the other is unknown. -/
def TakesVoid (arena : Arena) (environment : Environment) (result : Option Ty) (id : NodeId)
    (kind : NodeKind NodeId) (operand : NodeId) : Prop :=
  match kind with
  | .body _ | .construct _ _ => True
  | .cast target _ _ => ∃ wanted, arena.type? target = some wanted ∧ wanted.isOpaque = true
  | .returnFrom _ => result = some .any
  | .binary operator left right =>
      operator.category ≠ .logical ∧ (arena.type? left = none ∨ arena.type? right = none)
  | .call name arguments =>
      arena.PassesVoid (Inference.candidates environment name) id arguments operand
  | _ => False

variable {arena : Arena}

/-- Written types are no expressions. -/
theorem IsVoid.not_written {id : NodeId} (void : arena.IsVoid id) : ¬ arena.Admitted .type id := by
  rintro ⟨kind, found, admits⟩
  rcases void.1 with ⟨other, known, computes⟩
  cases found.symm.trans known
  cases kind <;> first | cases admits; done | cases computes

theorem IsVoid.not_definition {id : NodeId} {written : Option NodeId} {name : String}
    (void : arena.IsVoid id) : arena.kind? id ≠ some (.definition written name) := by
  intro defines
  rcases void.1 with ⟨kind, found, computes⟩
  cases defines.symm.trans found
  cases computes

theorem IsVoid.not_body {id : NodeId} {statements : List NodeId} (void : arena.IsVoid id) :
    arena.kind? id ≠ some (.body statements) := by
  intro held
  rcases void.1 with ⟨kind, found, computes⟩
  cases held.symm.trans found
  cases computes

end Arena

namespace Inference

variable {environment : Environment} {tree : SourceTree} {id : NodeId} {kind : NodeKind NodeId}
  {names : Scopes} {result : Option Ty} {nodes : List NodeId} {reports inner added : List Diagnostic}

/-- What is written for a type is never `void`. -/
theorem written_of_accepted (accepted : Accepted environment names tree nodes reports)
    {written : NodeId} (member : written ∈ nodes) (admitted : tree.arena.Admitted .type written) :
    ∃ type, tree.arena.type? written = some type ∧ type ≠ .void := by
  rcases admitted with ⟨kind, found, admits⟩
  rcases accepted.within member .refl with ⟨_, _, _, entry, -⟩
  cases found.symm.trans entry.found
  cases kind with
  | typeRef name ranks =>
      rcases entry.rule with ⟨type, own, read⟩
      rw [own] at read
      exact ⟨type, own, (Host.solid_of_reads_back (Host.reads_back_of_written read)).1⟩
  | _ => cases admits

/-- What a name is declared with has a known type other than `void`. -/
theorem declared_of_entry {written : NodeId} {name : String}
    (entry : Accepted.Entry environment names tree id kind inner added)
    (declares : kind = .parameter written name ∨ kind = .definition (some written) name)
    (types : ∀ {child}, (Category.type, child) ∈ kind.slots → tree.arena.Admitted .type child) :
    ∃ type, tree.arena.type? id = some type ∧ type ≠ .void := by
  rcases entry with ⟨-, below, rule, -⟩
  have own : tree.arena.type? id = tree.arena.type? written := by
    rcases declares with rfl | rfl <;> exact rule
  have child : written ∈ kind.children := by
    rcases declares with rfl | rfl <;> simp [NodeKind.children]
  have slot : (Category.type, written) ∈ kind.slots := by
    rcases declares with rfl | rfl <;> simp [NodeKind.slots]
  rw [own]
  exact written_of_accepted below child (types slot)

/-- No variable, member or element is of type `void`. -/
theorem place_of_entry (described : environment.host.Described)
    (bound : Bound tree.arena (fun id => tree.arena.type? id ≠ some .void) names)
    (entry : Accepted.Entry environment names tree id kind inner added) (place : kind.isPlace = true)
    (arrays : ∀ target index, kind = .indexAccess target index →
      tree.arena.Reads environment.host target) : tree.arena.type? id ≠ some .void := by
  intro void
  have rule := entry.rule
  rw [void] at rule
  cases kind with
  | member name =>
      rcases rule with ⟨binding, seen, same⟩
      rcases bound.lookup seen with ⟨⟨-, typed⟩, solid⟩
      exact solid (typed.trans same.symm)
  | memberAccess owner name =>
      simp only [NodeKind.Accepts] at rule
      cases known : tree.arena.type? owner with
      | none =>
          rw [known] at rule
          cases rule
      | some type =>
          rw [known] at rule
          rcases Option.map_eq_some_iff.mp rule with ⟨member, resolved, same⟩
          cases same
          rcases (Option.orElse_eq_some _ _ _).mp resolved with length | ⟨-, offered⟩
          · cases int_of_length length
          · exact (Host.solid_of_reads_back (described.member offered)).1 rfl
  | indexAccess target index =>
      have readable := arrays target index rfl
      have element := rule.2
      unfold Arena.Reads at readable
      generalize tree.arena.type? target = held at readable element
      cases held with
      | none => cases element
      | some type =>
          cases type with
          | array inside rank =>
              simp only [elementResult] at element
              split at element
              · cases element
                rcases readable _ rfl with null | same | back
                · cases null
                · cases same
                · exact (Host.solid_of_reads_back (Host.reads_back_of_array back)).1 rfl
              · cases element
          | _ => cases element
  | _ => cases place

/-- An argument of type `void` is passed to a parameter that takes anything. -/
theorem passes_void {name : String} {arguments : List NodeId} {argument : NodeId}
    (solid : ∀ signature ∈ candidates environment name, signature.Solid)
    (entry : Accepted.Entry environment names tree id (.call name arguments) inner added)
    (void : tree.arena.IsVoid argument) :
    tree.arena.PassesVoid (candidates environment name) id arguments argument := by
  unfold Arena.PassesVoid
  rcases call_result_cases entry.rule with ⟨signature, found, -⟩ | ⟨absent, own, -, excused⟩
  · rw [found]
    intro index seat
    have accepts := List.find?_some found
    unfold Signature.accepts at accepts
    rw [Bool.and_eq_true, beq_iff_eq, List.length_map] at accepts
    rcases List.getElem?_eq_some_iff.mp seat with ⟨bound, same⟩
    have inside : index < signature.parameters.length := by
      rw [accepts.1]
      exact bound
    rw [List.getElem?_eq_getElem inside]
    rcases solid signature (List.mem_of_find?_eq_some found) _ (List.getElem_mem inside) with
      ⟨type, typed, other⟩
    have pair : (signature.parameters[index], some .void) ∈
        signature.parameters.zip (arguments.map tree.arena.type?) := by
      refine List.mem_iff_getElem?.mpr ⟨index, ?_⟩
      rw [List.getElem?_zip_eq_some]
      refine ⟨List.getElem?_eq_getElem inside, ?_⟩
      rw [List.getElem?_map, seat, ← void.2]
      rfl
    have fits := List.all_eq_true.mp accepts.2 _ pair
    rw [typed] at fits ⊢
    simp only [Signature.acceptsArgument, beq_iff_eq] at fits
    rw [any_of_void_fits fits other]
  · rw [absent]
    refine ⟨own, ?_⟩
    rcases excused with said | unknown
    · have warned : inner ≠ [] := by
        rintro rfl
        cases said
      rcases entry.below.indexes_dimensions warned with ⟨other, member, indexes⟩
      exact ⟨other, member, Or.inr indexes⟩
    · rcases List.any_eq_true.mp unknown with ⟨type, member, none⟩
      rcases List.mem_map.mp member with ⟨other, inside, rfl⟩
      exact ⟨other, inside, Or.inl (Option.isNone_iff_eq_none.mp none)⟩

/-- An operand of type `void` stands below a node that takes it. -/
theorem takes_of_entry (described : environment.host.Described)
    (solid : ∀ name, ∀ signature ∈ candidates environment name, signature.Solid)
    (entry : Accepted.Entry environment names tree id kind inner added)
    (types : ∀ {child}, (Category.type, child) ∈ kind.slots → tree.arena.Admitted .type child)
    {operand : NodeId} (member : operand ∈ kind.children) (void : tree.arena.IsVoid operand) :
    tree.arena.TakesVoid environment result id kind operand := by
  have rule := entry.rule
  have not_type : (Category.type, operand) ∉ kind.slots := fun slot => void.not_written (types slot)
  have typed := void.2
  cases kind with
  | construct => trivial
  | call name arguments => exact passes_void (solid name) entry void
  | memberAccess owner name =>
      cases List.mem_singleton.mp member
      simp only [NodeKind.Accepts, typed] at rule
      rw [memberResult_of_void described] at rule
      cases rule
  | indexAccess target index =>
      rcases List.mem_pair.mp member with rfl | rfl
      · have element := rule.2
        rw [typed] at element
        cases element
      · cases rule.1 _ typed
  | binary operator left right =>
      rcases rule with ⟨common, result, -⟩
      apply common_of_void result
      rcases List.mem_pair.mp member with rfl | rfl
      · exact Or.inl typed
      · exact Or.inr typed
  | unary operator inside =>
      cases List.mem_singleton.mp member
      simp only [NodeKind.Accepts, typed] at rule
      rw [unary_of_void] at rule
      cases rule
  | newArray element length =>
      rcases List.mem_pair.mp member with rfl | rfl
      · exact absurd (by simp [NodeKind.slots]) not_type
      · cases rule.1 _ typed
  | cast target inside source =>
      rcases List.mem_pair.mp member with rfl | rfl
      · exact absurd (by simp [NodeKind.slots]) not_type
      · have child : target ∈ (NodeKind.cast target operand source).children := by
          simp [NodeKind.children]
        have slot : (Category.type, target) ∈ (NodeKind.cast target operand source).slots := by
          simp [NodeKind.slots]
        rcases written_of_accepted entry.below child (types slot) with ⟨wanted, known, other⟩
        exact ⟨wanted, known, opaque_of_void_casts (rule.2.2 _ typed _ known) other⟩
  | definition written name =>
      exact absurd (by simpa [NodeKind.slots, NodeKind.children] using member) not_type
  | parameter written name =>
      exact absurd (by simpa [NodeKind.slots, NodeKind.children] using member) not_type
  | literal | member | typeRef => cases member
  | _ => cases rule

end Inference

end ModuleLang
