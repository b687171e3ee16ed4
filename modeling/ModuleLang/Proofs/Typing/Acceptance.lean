import ModuleLang.Proofs.Typing.Rules
import ModuleLang.Proofs.Typing.Weaving
import ModuleLang.Typing.Inference.Expression

/-!
Acceptance of expressions. A node is accepted if its recorded type is the one that
its rule gives for the recorded types of its children, and the rule would neither
report an error nor widen an operand. Declarations have the types that are written
in them. What is said about accepted nodes, in the order in which they are looked
at, are the warnings.
-/

namespace ModuleLang

section Results

/-! The type that a rule gives for the types of the operands. There is none where
the rule reports an error or widens an operand. -/

def memberResult (host : Host) (name : String) : (owner : Option Ty) → Option (Option Ty)
  | none => some none
  | some owner => (Inference.lengthMember? owner name <|> host.member? owner name).map some

def elementResult : (target : Option Ty) → Option (Option Ty)
  | none => some none
  | some (.array element rank) => some (if rank = 1 then some element else none)
  | some _ => none

/-- Whether an element of an array of several dimensions is asked for. -/
def elementWarns : (target : Option Ty) → Bool
  | some (.array _ rank) => rank != 1
  | _ => false

/-- The common type of two operands. -/
def commonResult (category : OperatorCategory) (left right : Option Ty) : Option (Option Ty) :=
  match category.operandTypes? left right with
  | none => some none
  | some (left, right) =>
      match category.operandFit left right with
      | .fit => some (some left)
      | .unify => if left = right then some (some left) else none
      | .reject => none

def unaryResult (operator : UnaryOperator) : (operand : Option Ty) → Option (Option Ty)
  | none => some (if operator = .not then some .bool else none)
  | some operand => if (operator.result operand).2 then some (operator.result operand).1 else none

/-- Only where an argument is of unknown type or was reported a call may be of no
candidate. -/
def callResult (candidates : List Signature) (arguments : List (Option Ty)) (reported : Bool) :
    Option (Option Ty) :=
  match candidates.find? fun signature => signature.accepts arguments with
  | some signature => some signature.result
  | none =>
      if candidates.any (fun signature => signature.parameters.length == arguments.length) &&
        (reported || arguments.any Option.isNone) then some none
      else none

/-- The first candidate gives the result, or there is none and it is excused. -/
theorem call_result_cases {candidates : List Signature} {arguments : List (Option Ty)}
    {reported : Bool} {own : Option Ty} (rule : callResult candidates arguments reported = some own) :
    (∃ signature, (candidates.find? fun signature => signature.accepts arguments) = some signature ∧
      own = signature.result) ∨
    ((candidates.find? fun signature => signature.accepts arguments) = none ∧ own = none ∧
      (candidates.any fun signature => signature.parameters.length == arguments.length) = true ∧
      (reported = true ∨ arguments.any Option.isNone = true)) := by
  unfold callResult at rule
  split at rule
  · rename_i signature found
    exact Or.inl ⟨signature, found, (Option.some.inj rule).symm⟩
  · rename_i absent
    split at rule
    · rename_i excused
      rw [Bool.and_eq_true, Bool.or_eq_true] at excused
      exact Or.inr ⟨absent, (Option.some.inj rule).symm, excused.1, excused.2⟩
    · cases rule

/-- Operands have a common type if both are of known types that fit. -/
theorem common_result_cases {category : OperatorCategory} {left right common : Option Ty}
    (rule : commonResult category left right = some common) :
    (category.operandTypes? left right = none ∧ common = none) ∨
    ∃ first second, category.operandTypes? left right = some (first, second) ∧
      common = some first ∧ (category.operandFit first second = .fit ∨
        category.operandFit first second = .unify ∧ first = second) := by
  unfold commonResult at rule
  split at rule
  · rename_i unknown
    exact Or.inl ⟨unknown, (Option.some.inj rule).symm⟩
  · rename_i first second known
    refine Or.inr ⟨first, second, known, ?_⟩
    split at rule
    · rename_i fit
      exact ⟨(Option.some.inj rule).symm, Or.inl fit⟩
    · rename_i fit
      split at rule
      · rename_i same
        exact ⟨(Option.some.inj rule).symm, Or.inr ⟨fit, same⟩⟩
      · cases rule
    · cases rule

/-- Operands that come to one type fit once they have it. -/
theorem unify_of_common {category : OperatorCategory} {left right common : Ty}
    (unify : category.operandFit left right = .unify) (one : common = left ∨ common = right) :
    category.operandFit common common = .unify := by
  have both : ∀ {holds : Ty → Bool}, (holds left && holds right) = true →
      (holds common && holds common) = true := by
    intro holds met
    rw [Bool.and_eq_true] at met
    rcases one with rfl | rfl
    · rw [met.1, Bool.and_self]
    · rw [met.2, Bool.and_self]
  have numeric : category.operandFit left right = .unify → category ≠ .bitwise →
      (left.isNumeric && right.isNumeric) = true := by
    intro unify other
    cases category with
    | logical | bitwise | equality | arithmetic | comparison =>
        simp only [OperatorCategory.operandFit] at unify
        grind
  have integer : category.operandFit left right = .unify → category = .bitwise →
      (left.isInteger && right.isInteger) = true := by
    rintro unify rfl
    simp only [OperatorCategory.operandFit] at unify
    grind
  cases category with
  | arithmetic | comparison =>
      rw [OperatorCategory.operandFit, if_pos (both (numeric unify (by simp)))]
  | equality =>
      have number := both (numeric unify (by simp))
      have solid : ¬ (common = .void ∨ common = .void) := by
        rintro (rfl | rfl) <;> cases number
      rw [OperatorCategory.operandFit, if_neg solid, if_pos number]
  | logical =>
      simp only [OperatorCategory.operandFit] at unify
      split at unify <;> cases unify
  | bitwise =>
      have number := both (integer unify rfl)
      have solid : ¬ (common = .bool ∧ common = .bool) := by
        rintro ⟨rfl, -⟩
        cases number
      rw [OperatorCategory.operandFit, if_neg solid, if_pos number]

/-- Two operands of one type that need no widening. -/
theorem common_of_same {category : OperatorCategory} {common : Ty}
    (unify : category.operandFit common common = .unify) :
    commonResult category (some common) (some common) = some (some common) := by
  have types : category.operandTypes? (some common) (some common) = some (common, common) := by
    cases category <;> rfl
  rw [commonResult, types]
  simp only [unify, if_true]

theorem promote_same {left right : Ty} (promoted : promote left right = .same) : left = right := by
  unfold promote at promoted
  grind

theorem promote_left {left right type : Ty} (promoted : promote left right = .castLeft type) :
    type = right ∧ left.widensTo right = true := by
  unfold promote at promoted
  grind

theorem promote_right {left right type : Ty} (promoted : promote left right = .castRight type) :
    type = left ∧ right.widensTo left = true := by
  unfold promote at promoted
  grind

end Results

namespace NodeKind

variable {slot : Type}

/-- Whether a rule that gives no type warns of it. -/
def warns (type : slot → Option Ty) : NodeKind slot → Bool
  | indexAccess target _ => elementWarns (type target)
  | _ => false

/-- The rule that gives an expression or a declaration its own type. `reported` tells
whether a child was reported. -/
def Accepts (environment : Environment) (names : Scopes) (type : slot → Option Ty)
    (own : Option Ty) (reported : Bool) : NodeKind slot → Prop
  | literal value => own = some value.type
  | member name => ∃ binding, names.lookup name = some binding ∧ own = binding.type
  | memberAccess owner name => memberResult environment.host name (type owner) = some own
  | indexAccess target index =>
      IfKnown (type index) (· = .int) ∧ elementResult (type target) = some own
  | binary operator left right => ∃ common,
      commonResult operator.category (type left) (type right) = some common ∧
      own = if operator.category.isPredicate then some .bool else common
  | unary operator operand => unaryResult operator (type operand) = some own
  | call name arguments => callResult (Inference.candidates environment name)
      (arguments.map type) reported = some own
  | construct written _ => own = type written
  | newArray element length => IfKnown (type length) (· = .int) ∧
      own = (type element).map fun found => .array found 1
  | cast target inner source => source = type inner ∧ own = type target ∧
      IfKnown (type inner) fun found => IfKnown (type target) fun wanted =>
        found.castsTo wanted = true
  | typeRef name ranks => ∃ found, own = some found ∧ environment.host.written? name ranks = own
  | definition (some written) _ => own = type written
  | parameter written _ => own = type written
  | _ => False

variable {type other : slot → Option Ty} {kind : NodeKind slot}

theorem warns_of_same_types (same : ∀ child ∈ kind.children, other child = type child) :
    kind.warns other = kind.warns type := by
  cases kind with
  | indexAccess target index =>
      have equal := same target (by simp [children])
      simp only [warns, equal]
  | _ => rfl

/-- The rule looks at no types but those of the slots. -/
theorem accepts_of_same_types {environment : Environment} {names : Scopes} {own : Option Ty}
    {reported : Bool} (same : ∀ child ∈ kind.children, other child = type child)
    (accepts : kind.Accepts environment names type own reported) :
    kind.Accepts environment names other own reported := by
  cases kind with
  | call name arguments =>
      have equal : arguments.map other = arguments.map type := List.map_congr_left same
      simp only [Accepts, equal] at *
      exact accepts
  | definition written name =>
      cases written with
      | none => exact accepts
      | some written => exact accepts.trans (same written (by simp [children])).symm
  | memberAccess | indexAccess | binary | unary | construct | newArray | cast | parameter =>
      simp only [children, List.mem_cons, List.not_mem_nil, or_false, forall_eq_or_imp,
        forall_eq] at same
      simp only [Accepts, same] at *
      exact accepts
  | _ => exact accepts

end NodeKind

namespace Inference

/-- What is reported at a node that warns. -/
def Cautioned (environment : Environment) (tree : SourceTree) (id : NodeId) (warns : Bool)
    (added : List Diagnostic) : Prop :=
  if warns then ∃ span, tree.spans.span? id = some span ∧
    added = [⟨.multiDimensionalIndexer, span, environment.fileName⟩]
  else added = []

/-- The nodes from some nodes on are the same in two trees. -/
def Unchanged (tree other : SourceTree) (nodes : List NodeId) : Prop :=
  ∀ node ∈ nodes, ∀ id, tree.arena.Reachable node id →
    other.arena.node? id = tree.arena.node? id ∧ other.spans.span? id = tree.spans.span? id

namespace Unchanged

variable {tree other : SourceTree} {node : NodeId} {held : NodeKind NodeId}
  {nodes rest some : List NodeId}

theorem part (unchanged : Unchanged tree other nodes) (subset : some ⊆ nodes) :
    Unchanged tree other some :=
  fun node member => unchanged node (subset member)

theorem below (unchanged : Unchanged tree other (node :: rest))
    (found : tree.arena.kind? node = .some held) (subset : some ⊆ held.children) :
    Unchanged tree other some := by
  intro child member id path
  apply unchanged node List.mem_cons_self id (.below_child _ path)
  exact Arena.child_of_kind found (subset member)

theorem kind (unchanged : Unchanged tree other (node :: rest)) :
    other.arena.kind? node = tree.arena.kind? node :=
  Arena.kind_of_node (unchanged node List.mem_cons_self node .refl).1

theorem type (unchanged : Unchanged tree other nodes) :
    ∀ node ∈ nodes, other.arena.type? node = tree.arena.type? node :=
  fun node member => Arena.type_of_node (unchanged node member node .refl).1

end Unchanged

/-- Nodes that are accepted one after the other, with what is reported about them. -/
inductive Accepted (environment : Environment) (names : Scopes) (tree : SourceTree) :
    List NodeId → List Diagnostic → Prop
  | nil : Accepted environment names tree [] []
  | cons {id kind rest inner added later} (found : tree.arena.kind? id = some kind)
      (below : Accepted environment names tree kind.children inner)
      (rule : kind.Accepts environment names tree.arena.type? (tree.arena.type? id) (!inner.isEmpty))
      (warned : Cautioned environment tree id (kind.warns tree.arena.type?) added)
      (after : Accepted environment names tree rest later) :
      Accepted environment names tree (id :: rest) (inner ++ added ++ later)

namespace Accepted

variable {environment : Environment} {names : Scopes} {tree other : SourceTree} {id : NodeId}
  {first second nodes : List NodeId} {kind : NodeKind NodeId}
  {reports more inner added : List Diagnostic}

/-- One accepted node. -/
theorem one (found : tree.arena.kind? id = some kind)
    (below : Accepted environment names tree kind.children inner)
    (rule : kind.Accepts environment names tree.arena.type? (tree.arena.type? id) (!inner.isEmpty))
    (warned : Cautioned environment tree id (kind.warns tree.arena.type?) added) :
    Accepted environment names tree [id] (inner ++ added) := by
  have whole := Accepted.cons found below rule warned .nil
  rw [List.append_nil] at whole
  exact whole

theorem append (left : Accepted environment names tree first reports)
    (right : Accepted environment names tree second more) :
    Accepted environment names tree (first ++ second) (reports ++ more) := by
  induction left with
  | nil => exact right
  | cons found below rule warned _ _ ih =>
      rw [List.append_assoc _ _ more]
      exact .cons found below rule warned ih

theorem split (accepted : Accepted environment names tree (first ++ second) reports) :
    ∃ left right, reports = left ++ right ∧ Accepted environment names tree first left ∧
      Accepted environment names tree second right := by
  induction first generalizing reports with
  | nil => exact ⟨[], reports, rfl, .nil, accepted⟩
  | cons node first ih =>
      cases accepted with
      | @cons _ _ _ inner added later found below rule warned after =>
          rcases ih after with ⟨left, right, rfl, before, behind⟩
          refine ⟨inner ++ added ++ left, right, ?_, .cons found below rule warned before, behind⟩
          rw [List.append_assoc _ left right]

/-- Nodes stay accepted while the nodes from them on stay what they are. -/
theorem frame (accepted : Accepted environment names tree nodes reports)
    (unchanged : Unchanged tree other nodes) : Accepted environment names other nodes reports := by
  induction accepted with
  | nil => exact .nil
  | @cons id kind rest inner added later found below rule warned after ihBelow ihAfter =>
      have children := unchanged.below found (List.Subset.refl _)
      have own := unchanged id List.mem_cons_self id .refl
      apply Accepted.cons (unchanged.kind.trans found) (ihBelow children)
      · rw [Arena.type_of_node own.1]
        exact NodeKind.accepts_of_same_types children.type rule
      · unfold Cautioned
        rw [NodeKind.warns_of_same_types children.type, own.2]
        exact warned
      · exact ihAfter (unchanged.part (List.subset_cons_self _ _))

/-- What is known of an accepted node. -/
structure Entry (environment : Environment) (names : Scopes) (tree : SourceTree) (id : NodeId)
    (kind : NodeKind NodeId) (inner added : List Diagnostic) : Prop where
  found : tree.arena.kind? id = some kind
  below : Accepted environment names tree kind.children inner
  rule : kind.Accepts environment names tree.arena.type? (tree.arena.type? id) (!inner.isEmpty)
  warned : Cautioned environment tree id (kind.warns tree.arena.type?) added

/-- Every node below accepted ones is accepted. -/
theorem within (accepted : Accepted environment names tree nodes reports) {node : NodeId}
    (member : node ∈ nodes) (path : tree.arena.Reachable node id) :
    ∃ kind inner added, Entry environment names tree id kind inner added ∧
      inner ++ added ⊆ reports := by
  induction accepted generalizing node with
  | nil => cases member
  | @cons own kind rest inner added later found below rule warned after ihBelow ihAfter =>
      rcases List.mem_cons.mp member with rfl | member
      · rcases Arena.reachable_cases path with rfl | ⟨child, slot, path⟩
        · exact ⟨kind, inner, added, ⟨found, below, rule, warned⟩, List.subset_append_left _ _⟩
        · rw [Arena.children_of_kind found] at slot
          rcases ihBelow slot path with ⟨kind, inner', added', entry, subset⟩
          refine ⟨kind, inner', added', entry, List.Subset.trans subset ?_⟩
          rw [List.append_assoc]
          exact List.subset_append_left _ _
      · rcases ihAfter member path with ⟨kind, inner', added', entry, subset⟩
        exact ⟨kind, inner', added', entry, List.Subset.trans subset (List.subset_append_right _ _)⟩

/-- What the rules hand on from the visible names and from the children of a node is true
of all accepted nodes. `all` are the reports that may have been made. -/
theorem carries {holds : NodeId → Prop} {all : List Diagnostic}
    (accepted : Accepted environment names tree nodes reports)
    (rule : ∀ {first id kind inner added}, first ∈ nodes → tree.arena.Reachable first id →
      Entry environment names tree id kind inner added → inner ++ added ⊆ all →
      (∀ child ∈ kind.children, holds child) → holds id)
    (within : reports ⊆ all) : ∀ node ∈ nodes, holds node := by
  induction accepted with
  | nil => exact List.forall_mem_nil _
  | @cons id kind rest inner added later found below own warned after ihBelow ihAfter =>
      have early : inner ++ added ⊆ all := (List.append_subset.mp within).1
      have children := ihBelow (fun member path => rule List.mem_cons_self
        (path.below_child (Arena.child_of_kind found member)))
        (List.append_subset.mp early).1
      intro node member
      rcases List.mem_cons.mp member with rfl | member
      · exact rule List.mem_cons_self .refl ⟨found, below, own, warned⟩ early children
      · exact ihAfter (fun member => rule (List.mem_cons_of_mem _ member))
          (List.append_subset.mp within).2 node member

end Accepted

end Inference

end ModuleLang
