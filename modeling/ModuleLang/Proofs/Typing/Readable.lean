import ModuleLang.Proofs.Typing.Assessing
import ModuleLang.Proofs.Typing.Heredity

/-!
Types that are found for expressions. While the names, the functions and the members that
are looked up have types that can be written, or that of `null`, or none, so has every
expression, whatever is reported about it.
-/

namespace ModuleLang

/-- What is known outside the functions is of types that can be written, or nothing. -/
structure Environment.Readable (environment : Environment) : Prop where
  described : environment.host.Described
  results : ∀ signature ∈ environment.functions, environment.host.Reads signature.result

variable {environment : Environment} {names : Scopes} {type : NodeId → Option Ty}
  {reported : Bool} {node : NodeId} {kind : NodeKind NodeId}

/-- Operands come to the type of one of them, if they come to any. -/
theorem fitting_finding_type (node : NodeId) (operator : BinaryOperator) (left right : Ty) :
    (fittingFinding node operator left right).type = none ∨
      (fittingFinding node operator left right).type = some left ∨
      (fittingFinding node operator left right).type = some right := by
  unfold fittingFinding
  split
  · exact Or.inr (Or.inl rfl)
  · exact Or.inl rfl
  · by_cases same : left = right
    · rw [promote, if_pos same]
      exact Or.inr (Or.inl rfl)
    · by_cases first : left.widensTo right = true
      · rw [promote, if_neg same, if_pos first]
        exact Or.inr (Or.inr rfl)
      · by_cases second : right.widensTo left = true
        · rw [promote, if_neg same, if_neg first, if_pos second]
          exact Or.inr (Or.inl rfl)
        · rw [promote, if_neg same, if_neg first, if_neg second]
          exact Or.inl rfl

/-- A logical operator takes an unknown operand for a `bool`. -/
theorem common_finding_type (node : NodeId) (operator : BinaryOperator)
    (left right : Option Ty) :
    (commonFinding node operator left right).type = none ∨
      (commonFinding node operator left right).type = left ∨
      (commonFinding node operator left right).type = right ∨
      (commonFinding node operator left right).type = some .bool := by
  unfold commonFinding
  split
  · exact Or.inl rfl
  · rename_i first second known
    have origin : (some first = left ∨ some first = some .bool) ∧
        (some second = right ∨ some second = some .bool) := by
      cases category : operator.category with
      | logical =>
          rw [category] at known
          cases known
          cases left <;> cases right <;> simp
      | _ =>
          rw [category] at known
          rcases Option.bind_eq_some_iff.mp known with ⟨one, rfl, rest⟩
          rcases Option.map_eq_some_iff.mp rest with ⟨other, rfl, same⟩
          cases same
          exact ⟨Or.inl rfl, Or.inl rfl⟩
    rcases fitting_finding_type node operator first second with same | same | same
    · exact Or.inl same
    · rw [same]
      exact Or.inr (origin.1.imp id Or.inr)
    · rw [same]
      exact Or.inr (Or.inr origin.2)

namespace NodeKind

theorem finding_reads (readable : environment.Readable)
    (visible : ∀ name binding, kind = .member name → names.lookup name = some binding →
      environment.host.Reads binding.type)
    (written : ∀ element length, kind = .newArray element length →
      IfKnown (type element) environment.host.ReadsBack)
    (children : ∀ child ∈ kind.children, environment.host.Reads (type child)) :
    environment.host.Reads (kind.finding environment names type reported node).type := by
  have hereditary : Hereditary environment.host environment.host.Reads [] :=
    hereditary_reads readable.described
  have unknown : environment.host.Reads none := if_known_none _
  have bool : environment.host.Reads (some .bool) := hereditary.literal (.bool true)
  cases kind with
  | literal value => exact hereditary.literal value
  | member name =>
      simp only [finding]
      split
      · rename_i binding seen
        exact visible name binding rfl seen
      · exact unknown
  | memberAccess owner name =>
      simp only [finding, memberFinding]
      split
      · exact unknown
      · split
        · rename_i found
          rcases (Option.orElse_eq_some _ _ _).mp found with length | ⟨-, offered⟩
          · rw [Inference.int_of_length length]
            exact hereditary.literal (.int 0)
          · exact hereditary.member offered
        · exact unknown
  | indexAccess target index =>
      have first := children target (by simp [NodeKind.children])
      simp only [finding, elementFinding]
      split
      · exact unknown
      · rename_i element rank typed
        split
        · rename_i single
          rw [typed, single] at first
          exact hereditary.element first
        · exact unknown
      · exact unknown
  | binary operator left right =>
      simp only [finding]
      split
      · exact bool
      · have first := children left (by simp [NodeKind.children])
        have second := children right (by simp [NodeKind.children])
        rcases common_finding_type node operator (type left) (type right) with
          same | same | same | same <;> rw [same]
        · exact unknown
        · exact first
        · exact second
        · exact bool
  | unary operator operand =>
      have first := children operand (by simp [NodeKind.children])
      simp only [finding, unaryFinding]
      split
      · simp only
        split
        · exact bool
        · exact unknown
      · rename_i typed
        rw [typed] at first
        simp only [UnaryOperator.result]
        split
        · exact bool
        · split
          · exact first
          · exact unknown
  | call name arguments =>
      simp only [finding, callFinding]
      split
      · rename_i accepts
        exact Inference.hereditary_candidate hereditary readable.results
          (List.mem_of_find?_eq_some accepts)
      · exact unknown
  | construct target arguments => exact children target (by simp [NodeKind.children])
  | newArray element length =>
      have back := written element length rfl
      simp only [finding]
      cases typed : type element with
      | none => exact unknown
      | some found => exact Host.reads_of_back (Host.reads_back_array (back found typed) 1)
  | cast target inner source => exact children target (by simp [NodeKind.children])
  | typeRef name ranks =>
      simp only [finding, writtenFinding]
      split
      · rename_i read
        exact hereditary.written read
      · exact unknown
  | _ => exact unknown

end NodeKind

namespace Inference

variable {limit : Position} {origin : SourceTree} {nodes : List NodeId} {said : List Diagnostic}

theorem Assessed.reads (constructed : origin.Constructed limit) (readable : environment.Readable)
    (visible : ∀ name binding, names.lookup name = some binding →
      environment.host.Reads binding.type)
    (assessed : Assessed environment names origin type nodes said) {id : NodeId}
    (inside : Below origin nodes id) : environment.host.Reads (type id) := by
  induction assessed generalizing id with
  | nil =>
      rcases inside with ⟨_, member, -⟩
      cases member
  | @cons node kind rest inner own added later found below finds told after ihBelow ihAfter =>
      rcases inside with ⟨other, member, path⟩
      rcases List.mem_cons.mp member with rfl | member
      · rcases Arena.reachable_cases path with rfl | ⟨child, slot, path⟩
        · have reads : environment.host.Reads
              (kind.finding environment names type (!inner.isEmpty) id).type := by
            apply NodeKind.finding_reads readable fun name binding _ => visible name binding
            · rintro element length rfl
              have slot : (Category.type, element) ∈ (NodeKind.newArray element length).slots := by
                simp [NodeKind.slots]
              rcases constructed.admitted found _ slot with ⟨held, known, admits⟩
              cases below with
              | cons elementFound _ elementFinds _ _ =>
                  cases known.symm.trans elementFound
                  cases held with
                  | typeRef name ranks =>
                      have same := congrArg Finding.type elementFinds
                      simp only [NodeKind.finding, writtenFinding] at same
                      rw [← same]
                      split
                      · rename_i read
                        exact if_known_some (Host.reads_back_of_written read)
                      · exact if_known_none _
                  | _ => cases admits
            · exact fun child member => ihBelow ⟨child, member, .refl⟩
          rw [finds] at reads
          exact reads
        · rw [Arena.children_of_kind found] at slot
          exact ihBelow ⟨child, slot, path⟩
      · exact ihAfter ⟨other, member, path⟩

/-- The type that is found for an expression. -/
theorem reads_of_expression (constructed : origin.Constructed limit)
    (readable : environment.Readable) {state final : InferenceState} {found : Option Ty}
    (admitted : origin.arena.Admitted .expression node) (ready : Ready limit origin node state)
    (visible : ∀ name binding, state.scopes.lookup name = some binding →
      environment.host.Reads binding.type)
    (ran : Ran (expression environment node) state found final) :
    environment.host.Reads found := by
  rcases told_of_expression constructed admitted ready ran with ⟨⟨said, assessed, -⟩, typed⟩
  have reads := assessed.reads constructed readable visible (below_singleton.mpr .refl)
  rw [known_of_expression admitted, typed] at reads
  exact reads

end Inference

end ModuleLang
