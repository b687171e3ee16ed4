import ModuleLang.Proofs.Typing.Acceptance
import ModuleLang.Proofs.Typing.Regions

/-!
What the rules for expressions find, errors included. A rule looks at the kind of a
node and at the types that were found for its children; it finds a type and makes
reports, each about the node or one of its children. An assessment of a parsed tree
says so for every node below some nodes, in the order in which they are looked at.
The casts that inference puts in are no part of it: they change no type of a node
that was parsed.
-/

namespace ModuleLang

/-- What a rule finds: a type, and reports with the nodes that they are about. -/
structure Finding where
  type : Option Ty
  reports : List (NodeId × DiagnosticKind)

section Findings

/-! An operand of unknown type is held against nobody: it gives an unknown type and no
report. -/

def memberFinding (host : Host) (node : NodeId) (name : String) : (owner : Option Ty) → Finding
  | none => ⟨none, []⟩
  | some owner =>
      match Inference.lengthMember? owner name <|> host.member? owner name with
      | some type => ⟨some type, []⟩
      | none => ⟨none, [(node, .cannotFindMember name)]⟩

/-- The reports about an index or a length. -/
def indexReports (index : NodeId) : (type : Option Ty) → List (NodeId × DiagnosticKind)
  | none => []
  | some type =>
      if type = .int then []
      else if type.widensTo .int then []
      else [(index, .indexMustBeInteger)]

def elementFinding (node target : NodeId) : (type : Option Ty) → Finding
  | none => ⟨none, []⟩
  | some (.array element rank) =>
      if rank = 1 then ⟨some element, []⟩ else ⟨none, [(node, .multiDimensionalIndexer)]⟩
  | some other => ⟨none, [(target, .indexerNotApplicable other.text)]⟩

/-- The common type of two operands of known types. -/
def fittingFinding (node : NodeId) (operator : BinaryOperator) (left right : Ty) : Finding :=
  match operator.category.operandFit left right with
  | .fit => ⟨some left, []⟩
  | .reject => ⟨none, [(node, .cannotApplyOperator operator.symbol)]⟩
  | .unify =>
      match promote left right with
      | .same => ⟨some left, []⟩
      | .castLeft type => ⟨some type, []⟩
      | .castRight type => ⟨some type, []⟩
      | .incompatible => ⟨none, [(node, .cannotApplyOperator operator.symbol)]⟩

def commonFinding (node : NodeId) (operator : BinaryOperator) (left right : Option Ty) : Finding :=
  match operator.category.operandTypes? left right with
  | none => ⟨none, []⟩
  | some (left, right) => fittingFinding node operator left right

def unaryFinding (node : NodeId) (operator : UnaryOperator) : (operand : Option Ty) → Finding
  | none => ⟨if operator = .not then some .bool else none, []⟩
  | some operand => ⟨(operator.result operand).1,
      if (operator.result operand).2 then [] else [(node, .cannotApplyOperator operator.symbol)]⟩

/-- `reported` tells whether something was reported about the arguments. -/
def callFinding (candidates : List Signature) (node : NodeId) (name : String)
    (arguments : List (Option Ty)) (reported : Bool) : Finding :=
  match candidates.find? fun signature => signature.accepts arguments with
  | some signature => ⟨signature.result, []⟩
  | none => ⟨none,
      if candidates.any (fun signature => signature.parameters.length == arguments.length) &&
        (reported || arguments.any Option.isNone) then []
      else [(node, .unknownFunction name)]⟩

def castReports (node : NodeId) : (source target : Option Ty) → List (NodeId × DiagnosticKind)
  | some source, some target =>
      if source.castsTo target then [] else [(node, .cannotCast source.text target.text)]
  | _, _ => []

def writtenFinding (host : Host) (node : NodeId) (name : String) (ranks : List Nat) : Finding :=
  match host.written? name ranks with
  | some type => ⟨some type, []⟩
  | none => ⟨none, [(node, .typeNotFound name)]⟩

end Findings

namespace NodeKind

/-- What the rule for a node finds. `reported` tells whether something was reported
about its children. -/
def finding (environment : Environment) (names : Scopes) (type : NodeId → Option Ty)
    (reported : Bool) (node : NodeId) : NodeKind NodeId → Finding
  | literal value => ⟨some value.type, []⟩
  | member name =>
      match names.lookup name with
      | some binding => ⟨binding.type, []⟩
      | none => ⟨none, [(node, .cannotFindMember name)]⟩
  | memberAccess owner name => memberFinding environment.host node name (type owner)
  | indexAccess target index =>
      let element := elementFinding node target (type target)
      ⟨element.type, indexReports index (type index) ++ element.reports⟩
  | binary operator left right =>
      let common := commonFinding node operator (type left) (type right)
      ⟨if operator.category.isPredicate then some .bool else common.type, common.reports⟩
  | unary operator operand => unaryFinding node operator (type operand)
  | call name arguments =>
      callFinding (Inference.candidates environment name) node name (arguments.map type) reported
  | construct written _ => ⟨type written, []⟩
  | newArray element length =>
      ⟨(type element).map fun found => .array found 1, indexReports length (type length)⟩
  | cast target inner _ => ⟨type target, castReports node (type inner) (type target)⟩
  | typeRef name ranks => writtenFinding environment.host node name ranks
  | _ => ⟨none, []⟩

variable {environment : Environment} {names : Scopes} {type other : NodeId → Option Ty}
  {reported : Bool} {node : NodeId} {kind : NodeKind NodeId}

/-- The rule looks at no types but those of the children. -/
theorem finding_of_same_types (same : ∀ child ∈ kind.children, other child = type child) :
    kind.finding environment names other reported node =
      kind.finding environment names type reported node := by
  cases kind with
  | call name arguments =>
      have equal : arguments.map other = arguments.map type := List.map_congr_left same
      simp only [finding, equal]
  | memberAccess | indexAccess | binary | unary | construct | newArray | cast =>
      simp only [children, List.mem_cons, List.not_mem_nil, or_false, forall_eq_or_imp,
        forall_eq] at same
      simp only [finding, same]
  | _ => rfl

end NodeKind

namespace Inference

/-- The diagnostic for a report: it stands where the node was parsed. -/
def Voices (environment : Environment) (tree : SourceTree) (report : NodeId × DiagnosticKind)
    (found : Diagnostic) : Prop :=
  ∃ span, tree.spans.span? report.1 = some span ∧
    found = ⟨report.2, span, environment.fileName⟩

/-- The assessment of nodes that are looked at one after the other, with all that is
said about them. -/
inductive Assessed (environment : Environment) (names : Scopes) (tree : SourceTree)
    (type : NodeId → Option Ty) : List NodeId → List Diagnostic → Prop
  | nil : Assessed environment names tree type [] []
  | cons {id kind rest inner own added later} (found : tree.arena.kind? id = some kind)
      (below : Assessed environment names tree type kind.children inner)
      (finds : kind.finding environment names type (!inner.isEmpty) id = ⟨type id, own⟩)
      (told : List.Forall₂ (Voices environment tree) own added)
      (after : Assessed environment names tree type rest later) :
      Assessed environment names tree type (id :: rest) (inner ++ added ++ later)

namespace Assessed

variable {environment : Environment} {names : Scopes} {tree : SourceTree}
  {type other : NodeId → Option Ty} {id : NodeId} {kind : NodeKind NodeId}
  {first second nodes : List NodeId} {said more inner added : List Diagnostic}
  {own : List (NodeId × DiagnosticKind)}

theorem append (left : Assessed environment names tree type first said)
    (right : Assessed environment names tree type second more) :
    Assessed environment names tree type (first ++ second) (said ++ more) := by
  induction left with
  | nil => exact right
  | cons found below finds told _ _ ih =>
      rw [List.append_assoc _ _ more]
      exact .cons found below finds told ih

/-- One node. -/
theorem one (found : tree.arena.kind? id = some kind)
    (below : Assessed environment names tree type kind.children inner)
    (finds : kind.finding environment names type (!inner.isEmpty) id = ⟨type id, own⟩)
    (told : List.Forall₂ (Voices environment tree) own added) :
    Assessed environment names tree type [id] (inner ++ added) := by
  have whole := Assessed.cons found below finds told .nil
  rw [List.append_nil] at whole
  exact whole

/-- An assessment depends on the types of the nodes that it is about. -/
theorem of_same_types (assessed : Assessed environment names tree type nodes said)
    (same : ∀ id, Below tree nodes id → other id = type id) :
    Assessed environment names tree other nodes said := by
  induction assessed with
  | nil => exact .nil
  | @cons id kind rest inner own added later found below finds told after ihBelow ihAfter =>
      have inside : ∀ child ∈ kind.children, ∀ {below}, tree.arena.Reachable child below →
          Below tree (id :: rest) below := by
        intro child member other path
        refine ⟨id, List.mem_cons_self, .below_child ?_ path⟩
        exact Arena.child_of_kind found member
      apply Assessed.cons found (ihBelow _) _ told (ihAfter _)
      · rintro other ⟨child, member, path⟩
        exact same other (inside child member path)
      · rw [NodeKind.finding_of_same_types fun child member => same child (inside child member .refl),
          finds, same id ⟨id, List.mem_cons_self, .refl⟩]
      · rintro other ⟨node, member, path⟩
        exact same other ⟨node, List.mem_cons_of_mem _ member, path⟩

/-- Every node below assessed ones is assessed. -/
theorem within (assessed : Assessed environment names tree type nodes said) {node : NodeId}
    (member : node ∈ nodes) (path : tree.arena.Reachable node id) :
    ∃ some, Assessed environment names tree type [id] some ∧ some ⊆ said := by
  induction assessed generalizing node with
  | nil => cases member
  | @cons own kind rest inner reports added later found below finds told after ihBelow ihAfter =>
      rcases List.mem_cons.mp member with rfl | member
      · rcases Arena.reachable_cases path with rfl | ⟨child, slot, path⟩
        · exact ⟨inner ++ added, .one found below finds told, List.subset_append_left _ _⟩
        · rw [Arena.children_of_kind found] at slot
          rcases ihBelow slot path with ⟨some, assessed, subset⟩
          refine ⟨some, assessed, List.Subset.trans subset ?_⟩
          rw [List.append_assoc]
          exact List.subset_append_left _ _
      · rcases ihAfter member path with ⟨some, assessed, subset⟩
        exact ⟨some, assessed, List.Subset.trans subset (List.subset_append_right _ _)⟩

end Assessed

end Inference

end ModuleLang
