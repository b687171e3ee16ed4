import ModuleLang.Proofs.Parsing.Declaration
import ModuleLang.Proofs.Typing.Assessing
import ModuleLang.Proofs.Typing.Jumps
import ModuleLang.Proofs.Typing.Viewing

/-!
Unknown types are held against nobody. An expression that is inferred without a report
is compared with itself under scopes that have forgotten the types of some variables.
Rule by rule, what is found then is unknown or the same, and nothing is reported. There
is one exception: a call takes the first candidate that accepts its arguments, and an
argument of unknown type is accepted by every parameter. So a call may be taken for
another function than it is while all is known, and have a type that is wrong.
-/

namespace ModuleLang

/-- The first type is unknown, or the same as the second. -/
def Vaguer (vague exact : Option Ty) : Prop :=
  vague = none ∨ vague = exact

theorem vaguer_refl (type : Option Ty) : Vaguer type type := Or.inr rfl

theorem vaguer_none (type : Option Ty) : Vaguer none type := Or.inl rfl

/-! The same names are declared by the same nodes in the same frames, and the types of
some of them are forgotten. -/

structure Binding.Forgets (exact vague : Binding) : Prop where
  type : Vaguer vague.type exact.type
  node : vague.node = exact.node
  kind : vague.kind = exact.kind

structure Frame.Forgets (exact vague : Frame) : Prop where
  visible : List.Forall₂ (fun one other => one.1 = other.1 ∧ one.2.Forgets other.2) exact.visible
    vague.visible
  declared : vague.declared = exact.declared
  nested : vague.nested = exact.nested

structure Scopes.Forgets (exact vague : Scopes) : Prop where
  top : exact.top.Forgets vague.top
  outer : List.Forall₂ Frame.Forgets exact.outer vague.outer

/-- What was visible still is, with a type that is unknown or the same. -/
theorem Scopes.Forgets.lookup {exact vague : Scopes} (forgets : exact.Forgets vague) {name : String}
    {binding : Binding} (seen : exact.lookup name = some binding) :
    ∃ other, vague.lookup name = some other ∧ Vaguer other.type binding.type := by
  have tables := forgets.top.visible
  unfold Scopes.lookup at seen ⊢
  generalize exact.top.visible = table at tables seen
  generalize vague.top.visible = other at tables ⊢
  induction tables with
  | nil => cases seen
  | @cons one other _ _ same _ ih =>
      rcases one with ⟨first, held⟩
      rcases other with ⟨second, hidden⟩
      rcases same with ⟨rfl, bindings⟩
      rw [List.lookup_cons] at seen ⊢
      cases named : name == first with
      | true =>
          simp only [named] at seen ⊢
          cases seen
          exact ⟨hidden, rfl, bindings.type⟩
      | false =>
          simp only [named] at seen ⊢
          exact ih seen

section Calls

variable {signature : Signature} {candidates : List Signature} {types others : List (Option Ty)}

theorem accepts_argument_vaguer {parameter type other : Option Ty} (vaguer : Vaguer other type)
    (accepts : Signature.acceptsArgument parameter type = true) :
    Signature.acceptsArgument parameter other = true := by
  rcases vaguer with rfl | rfl
  · cases parameter <;> rfl
  · exact accepts

/-- Less is known of the arguments, so no more is held against them. -/
theorem accepts_vaguer (vaguer : List.Forall₂ Vaguer others types)
    (accepts : signature.accepts types = true) : signature.accepts others = true := by
  unfold Signature.accepts at accepts ⊢
  rw [Bool.and_eq_true] at accepts ⊢
  refine ⟨by rw [vaguer.length_eq]; exact accepts.1, ?_⟩
  have fits := accepts.2
  generalize signature.parameters = parameters at fits ⊢
  clear accepts
  induction vaguer generalizing parameters with
  | nil => rw [List.zip_nil_right, List.all_nil]
  | @cons other type _ _ one _ ih =>
      cases parameters with
      | nil => rfl
      | cons parameter parameters =>
          rw [List.zip_cons_cons, List.all_cons, Bool.and_eq_true] at fits ⊢
          exact ⟨accepts_argument_vaguer one fits.1, ih parameters fits.2⟩

theorem some_unknown_vaguer (vaguer : List.Forall₂ Vaguer others types)
    (unknown : types.any Option.isNone = true) : others.any Option.isNone = true := by
  induction vaguer with
  | nil => cases unknown
  | @cons other type _ _ one _ ih =>
      rw [List.any_cons, Bool.or_eq_true] at unknown ⊢
      rcases unknown with unknown | unknown
      · left
        rcases one with rfl | rfl
        · rfl
        · exact unknown
      · exact Or.inr (ih unknown)

/-- A call that is not reported, and then knows less of its arguments. -/
theorem call_vaguer {node : NodeId} {name : String} (vaguer : List.Forall₂ Vaguer others types)
    (quiet : (callFinding candidates node name types false).reports = []) :
    (callFinding candidates node name others false).reports = [] ∧
      (Vaguer (callFinding candidates node name others false).type
        (callFinding candidates node name types false).type ∨
      ∃ signature type, (candidates.find? fun signature => signature.accepts others) =
        some signature ∧ signature.result = some type ∧
        (callFinding candidates node name types false).type ≠ some type) := by
  cases again : candidates.find? fun signature => signature.accepts others with
  | some signature =>
      have found : callFinding candidates node name others false = ⟨signature.result, []⟩ := by
        unfold callFinding
        rw [again]
      rw [found]
      refine ⟨rfl, ?_⟩
      cases result : signature.result with
      | none => exact Or.inl (vaguer_none _)
      | some type =>
          by_cases same : (callFinding candidates node name types false).type = some type
          · rw [same]
            exact Or.inl (vaguer_refl _)
          · exact Or.inr ⟨signature, type, rfl, result, same⟩
  | none =>
      have first : (candidates.find? fun signature => signature.accepts types) = none := by
        rw [List.find?_eq_none] at again ⊢
        intro signature member accepts
        exact again signature member (accepts_vaguer vaguer accepts)
      unfold callFinding at quiet ⊢
      rw [first] at quiet
      rw [again, first]
      simp only [Bool.false_or] at quiet ⊢
      split at quiet
      · rename_i excused
        rw [Bool.and_eq_true] at excused
        rw [vaguer.length_eq, if_pos (by rw [excused.1, some_unknown_vaguer vaguer excused.2]; rfl)]
        exact ⟨rfl, Or.inl (vaguer_refl _)⟩
      · cases quiet

end Calls

section Operators

variable {node index target inner : NodeId} {type other left right : Option Ty}

theorem member_vaguer {host : Host} {name : String} (vaguer : Vaguer other type)
    (quiet : (memberFinding host node name type).reports = []) :
    (memberFinding host node name other).reports = [] ∧
      Vaguer (memberFinding host node name other).type (memberFinding host node name type).type := by
  rcases vaguer with rfl | rfl
  · exact ⟨rfl, vaguer_none _⟩
  · exact ⟨quiet, vaguer_refl _⟩

theorem index_reports_vaguer (vaguer : Vaguer other type) (quiet : indexReports index type = []) :
    indexReports index other = [] := by
  rcases vaguer with rfl | rfl
  · rfl
  · exact quiet

theorem element_vaguer (vaguer : Vaguer other type)
    (quiet : (elementFinding node target type).reports = []) :
    (elementFinding node target other).reports = [] ∧
      Vaguer (elementFinding node target other).type (elementFinding node target type).type := by
  rcases vaguer with rfl | rfl
  · exact ⟨rfl, vaguer_none _⟩
  · exact ⟨quiet, vaguer_refl _⟩

theorem cast_reports_vaguer {source target vague : Option Ty} (vaguer : Vaguer vague source)
    (quiet : castReports node source target = []) : castReports node vague target = [] := by
  rcases vaguer with rfl | rfl
  · rfl
  · exact quiet

/-- A logical operator takes an unknown operand for a `bool`, which is the only type
that it is satisfied with. -/
theorem logical_vaguer {operator : BinaryOperator} {otherLeft otherRight : Option Ty}
    (logical : operator.category = .logical) (first : Vaguer otherLeft left)
    (second : Vaguer otherRight right)
    (quiet : (commonFinding node operator left right).reports = []) :
    (commonFinding node operator otherLeft otherRight).reports = [] ∧
      Vaguer (commonFinding node operator otherLeft otherRight).type
        (commonFinding node operator left right).type := by
  have both : left.getD .bool = .bool ∧ right.getD .bool = .bool := by
    unfold commonFinding fittingFinding at quiet
    rw [logical] at quiet
    simp only [OperatorCategory.operandTypes?, OperatorCategory.operandFit] at quiet
    by_contra wrong
    rw [if_neg wrong] at quiet
    cases quiet
  have same : commonFinding node operator otherLeft otherRight =
      commonFinding node operator left right := by
    have one : otherLeft.getD .bool = left.getD .bool := by
      rcases first with rfl | rfl
      · exact both.1.symm
      · rfl
    have two : otherRight.getD .bool = right.getD .bool := by
      rcases second with rfl | rfl
      · exact both.2.symm
      · rfl
    unfold commonFinding
    rw [logical]
    simp only [OperatorCategory.operandTypes?, one, two]
  rw [same]
  exact ⟨quiet, vaguer_refl _⟩

theorem common_vaguer {operator : BinaryOperator} {otherLeft otherRight : Option Ty}
    (first : Vaguer otherLeft left) (second : Vaguer otherRight right)
    (quiet : (commonFinding node operator left right).reports = []) :
    (commonFinding node operator otherLeft otherRight).reports = [] ∧
      Vaguer (commonFinding node operator otherLeft otherRight).type
        (commonFinding node operator left right).type := by
  by_cases logical : operator.category = .logical
  · exact logical_vaguer logical first second quiet
  have strict : ∀ {one two : Option Ty}, one = none ∨ two = none →
      commonFinding node operator one two = ⟨none, []⟩ := by
    intro one two unknown
    have types : operator.category.operandTypes? one two = none := by
      cases category : operator.category with
      | logical => exact absurd category logical
      | _ =>
          rcases unknown with rfl | rfl
          · rfl
          · cases one <;> rfl
    unfold commonFinding
    rw [types]
  rcases first with rfl | rfl
  · rw [strict (Or.inl rfl)]
    exact ⟨rfl, vaguer_none _⟩
  · rcases second with rfl | rfl
    · rw [strict (Or.inr rfl)]
      exact ⟨rfl, vaguer_none _⟩
    · exact ⟨quiet, vaguer_refl _⟩

theorem unary_vaguer {operator : UnaryOperator} (vaguer : Vaguer other type)
    (quiet : (unaryFinding node operator type).reports = []) :
    (unaryFinding node operator other).reports = [] ∧
      Vaguer (unaryFinding node operator other).type (unaryFinding node operator type).type := by
  rcases vaguer with rfl | rfl
  · refine ⟨rfl, ?_⟩
    cases operator with
    | not =>
        cases type with
        | none => exact vaguer_refl _
        | some type => exact Or.inr rfl
    | _ => exact vaguer_none _
  · exact ⟨quiet, vaguer_refl _⟩

end Operators

namespace Inference

/-- A call that is taken for a function on the strength of an argument whose type is
forgotten, and that has a type which it does not have while all is known. -/
def Misled (environment : Environment) (tree : SourceTree) (exact vague : NodeId → Option Ty)
    (id : NodeId) : Prop :=
  ∃ name arguments signature type, tree.arena.kind? id = some (.call name arguments) ∧
    (∃ argument ∈ arguments, vague argument = none ∧ exact argument ≠ none) ∧
    ((candidates environment name).find? fun signature =>
      signature.accepts (arguments.map vague)) = some signature ∧
    signature.result = some type ∧ exact id ≠ some type

variable {limit : Position} {environment : Environment} {tree : SourceTree} {names others : Scopes}
  {exact vague : NodeId → Option Ty} {node id : NodeId} {kind : NodeKind NodeId}
  {nodes : List NodeId} {said : List Diagnostic}

/-- A call that has another type than while all was known is misled by a forgotten type. -/
theorem misled_of_call {name : String} {arguments : List NodeId} {signature : Signature} {type : Ty}
    (found : tree.arena.kind? id = some (.call name arguments))
    (children : ∀ argument ∈ arguments, Vaguer (vague argument) (exact argument))
    (accepts : ((candidates environment name).find? fun signature =>
      signature.accepts (arguments.map vague)) = some signature)
    (result : signature.result = some type)
    (other : (callFinding (candidates environment name) id name (arguments.map exact) false).type ≠
      some type)
    (typed : (callFinding (candidates environment name) id name (arguments.map exact) false).type =
      exact id) : Misled environment tree exact vague id := by
  refine ⟨name, arguments, signature, type, found, ?_, accepts, result, typed ▸ other⟩
  by_contra remembered
  -- with no type forgotten the same function is found as before
  have same : arguments.map vague = arguments.map exact := by
    apply List.map_congr_left
    intro argument member
    rcases children argument member with unknown | same
    · rw [unknown]
      by_contra differs
      exact remembered ⟨argument, member, unknown, fun none => differs none.symm⟩
    · exact same
  rw [same] at accepts
  apply other
  unfold callFinding
  rw [accepts]
  exact result

/-- The rules, one case for each kind of node. -/
theorem finding_vaguer (forgets : names.Forgets others)
    (children : ∀ child ∈ kind.children, Vaguer (vague child) (exact child))
    (found : tree.arena.kind? id = some kind)
    (first : kind.finding environment names exact false id = ⟨exact id, []⟩) :
    (kind.finding environment others vague false id).reports = [] ∧
      (Vaguer (kind.finding environment others vague false id).type (exact id) ∨
        Misled environment tree exact vague id) := by
  have quiet := congrArg Finding.reports first
  have typed := congrArg Finding.type first
  simp only at quiet typed
  rw [← typed]
  cases kind with
  | member name =>
      simp only [NodeKind.finding] at quiet ⊢
      cases seen : names.lookup name with
      | none =>
          rw [seen] at quiet
          cases quiet
      | some binding =>
          rcases forgets.lookup seen with ⟨other, visible, vaguer⟩
          simp only [visible]
          exact ⟨trivial, Or.inl vaguer⟩
  | memberAccess owner name =>
      rcases member_vaguer (children owner (by simp [NodeKind.children])) quiet with
        ⟨silent, vaguer⟩
      exact ⟨silent, Or.inl vaguer⟩
  | indexAccess target index =>
      rcases List.append_eq_nil_iff.mp quiet with ⟨indexed, element⟩
      rcases element_vaguer (children target (by simp [NodeKind.children])) element with
        ⟨silent, vaguer⟩
      refine ⟨?_, Or.inl vaguer⟩
      exact List.append_eq_nil_iff.mpr
        ⟨index_reports_vaguer (children index (by simp [NodeKind.children])) indexed, silent⟩
  | binary operator left right =>
      rcases common_vaguer (children left (by simp [NodeKind.children]))
        (children right (by simp [NodeKind.children])) quiet with ⟨silent, vaguer⟩
      refine ⟨silent, Or.inl ?_⟩
      simp only [NodeKind.finding]
      split
      · exact vaguer_refl _
      · exact vaguer
  | unary operator operand =>
      rcases unary_vaguer (children operand (by simp [NodeKind.children])) quiet with
        ⟨silent, vaguer⟩
      exact ⟨silent, Or.inl vaguer⟩
  | call name arguments =>
      have vaguer : List.Forall₂ Vaguer (arguments.map vague) (arguments.map exact) := by
        rw [List.forall₂_map_left_iff, List.forall₂_map_right_iff]
        exact List.forall₂_same.mpr children
      rcases call_vaguer vaguer quiet with
        ⟨silent, vaguer | ⟨signature, type, accepts, result, other⟩⟩
      · exact ⟨silent, Or.inl vaguer⟩
      · exact ⟨silent, Or.inr (misled_of_call found children accepts result other typed)⟩
  | construct written arguments =>
      exact ⟨rfl, Or.inl (children written (by simp [NodeKind.children]))⟩
  | newArray element length =>
      refine ⟨index_reports_vaguer (children length (by simp [NodeKind.children])) quiet, Or.inl ?_⟩
      simp only [NodeKind.finding]
      rcases children element (by simp [NodeKind.children]) with unknown | same
      · rw [unknown]
        exact vaguer_none _
      · rw [same]
        exact vaguer_refl _
  | cast target inner source =>
      have second := children target (by simp [NodeKind.children])
      have first := children inner (by simp [NodeKind.children])
      refine ⟨?_, Or.inl second⟩
      simp only [NodeKind.finding] at quiet ⊢
      rcases second with unknown | same
      · rw [unknown]
        cases vague inner <;> rfl
      · rw [same]
        exact cast_reports_vaguer first quiet
  | _ => exact ⟨quiet, Or.inl (vaguer_refl _)⟩

/-- What was assessed without a report, assessed again under scopes that have forgotten
types. -/
theorem Assessed.vaguer (first : Assessed environment names tree exact nodes said)
    (quiet : said = []) {again : List Diagnostic}
    (second : Assessed environment others tree vague nodes again) (forgets : names.Forgets others)
    (straight : ∀ id, Below tree nodes id → ¬ Misled environment tree exact vague id) :
    again = [] ∧ ∀ id, Below tree nodes id → Vaguer (vague id) (exact id) := by
  induction first generalizing again with
  | nil =>
      cases second
      refine ⟨rfl, ?_⟩
      rintro id ⟨node, member, -⟩
      cases member
  | @cons id kind rest inner own added later found below finds told after ihBelow ihAfter =>
      rcases List.append_eq_nil_iff.mp quiet with ⟨head, rfl⟩
      rcases List.append_eq_nil_iff.mp head with ⟨rfl, rfl⟩
      cases told
      cases second with
      | @cons _ other _ _ reports _ _ held below' finds' told' after' =>
          cases found.symm.trans held
          have inside : ∀ {below}, Below tree kind.children below → Below tree [id] below :=
            fun held => by
              rcases held with ⟨child, member, path⟩
              rw [← Arena.children_of_kind found] at member
              exact ⟨id, List.mem_cons_self, path.below_child member⟩
          have early : ∀ {below}, Below tree [id] below → Below tree (id :: rest) below := by
            rintro below ⟨node, member, path⟩
            rw [List.mem_singleton.mp member] at path
            exact ⟨id, List.mem_cons_self, path⟩
          rcases ihBelow rfl below' fun low held => straight low (early (inside held)) with
            ⟨rfl, children⟩
          rcases ihAfter rfl after' fun low held => by
            rcases held with ⟨node, member, path⟩
            exact straight low ⟨node, List.mem_cons_of_mem _ member, path⟩ with ⟨rfl, siblings⟩
          rcases finding_vaguer forgets
            (fun child member => children child ⟨child, member, .refl⟩) found finds with
            ⟨silent, result⟩
          rw [List.isEmpty_nil, Bool.not_true] at finds'
          rw [finds'] at silent result
          simp only at silent result
          subst silent
          cases told'
          refine ⟨rfl, ?_⟩
          rintro low ⟨node, member, path⟩
          rcases List.mem_cons.mp member with rfl | member
          · rcases Arena.reachable_cases path with rfl | ⟨child, slot, path⟩
            · exact result.resolve_right (straight low (early ⟨low, List.mem_cons_self, .refl⟩))
            · rw [Arena.children_of_kind found] at slot
              exact children low ⟨child, slot, path⟩
          · exact siblings low ⟨node, member, path⟩

/-- Types that were found for expressions are the ones that are stored. -/
theorem Misled.stored (constructed : tree.Constructed limit) {final last : InferenceState}
    (misled : Misled environment tree (known environment.host tree final)
      (known environment.host tree last) id) :
    Misled environment tree final.type? last.type? id := by
  rcases misled with ⟨name, arguments, signature, type, found, ⟨argument, member, hidden, told⟩,
    accepts, result, other⟩
  have own : tree.arena.Admitted .expression id := ⟨_, found, rfl⟩
  have admitted : ∀ argument ∈ arguments, tree.arena.Admitted .expression argument :=
    fun argument member => constructed.admitted found (.expression, argument)
      (by simp [NodeKind.slots, member])
  have types : arguments.map (known environment.host tree last) = arguments.map last.type? :=
    List.map_congr_left fun argument member => known_of_expression (admitted argument member)
  rw [known_of_expression (admitted argument member)] at hidden told
  rw [types] at accepts
  rw [known_of_expression own] at other
  exact ⟨name, arguments, signature, type, found, ⟨argument, member, hidden, told⟩, accepts, result,
    other⟩

/-- An expression that was inferred twice, the second time with less known of the
variables. -/
theorem told_vaguer (constructed : tree.Constructed limit) {first second final last : InferenceState}
    (before : Told environment names tree [node] first final)
    (after : Told environment others tree [node] second last)
    (forgets : names.Forgets others) (quiet : final.diagnostics = first.diagnostics) :
    (last.diagnostics = second.diagnostics ∨ ∃ call, tree.arena.Reachable node call ∧
      Misled environment tree final.type? last.type? call) ∧
    ∀ id, tree.arena.Reachable node id → tree.arena.Admitted .expression id →
      Vaguer (last.type? id) (final.type? id) ∨ ∃ call, tree.arena.Reachable id call ∧
        Misled environment tree final.type? last.type? call := by
  rcases before with ⟨said, exact, reported⟩
  rcases after with ⟨again, vague, more⟩
  have silent : said = [] := List.append_right_eq_self.mp (reported.symm.trans quiet)
  subst silent
  constructor
  · by_cases straight : ∃ call, tree.arena.Reachable node call ∧
      Misled environment tree final.type? last.type? call
    · exact Or.inr straight
    · left
      rcases exact.vaguer rfl vague forgets fun id below misled =>
        straight ⟨id, below_singleton.mp below, misled.stored constructed⟩ with ⟨rfl, -⟩
      rw [more, List.append_nil]
  · intro id below admitted
    by_cases straight : ∃ call, tree.arena.Reachable id call ∧
      Misled environment tree final.type? last.type? call
    · exact Or.inr straight
    · left
      rcases exact.within List.mem_cons_self below with ⟨part, exact, subset⟩
      rcases vague.within List.mem_cons_self below with ⟨_, vague, -⟩
      have vaguer := (exact.vaguer (List.subset_nil.mp subset) vague forgets fun call below misled =>
        straight ⟨call, below_singleton.mp below, misled.stored constructed⟩).2 id
        (below_singleton.mpr .refl)
      rw [known_of_expression admitted, known_of_expression admitted] at vaguer
      exact vaguer

end Inference

namespace Scopes

/-- The visible names and their types, as if all of them were declared by one node. -/
def anchored (anchor : NodeId) (names : Scopes) : Scopes :=
  ⟨⟨names.top.visible.map fun entry => (entry.1, { entry.2 with node := anchor }), [], []⟩, []⟩

variable {names others : Scopes} (anchor : NodeId)

theorem lookup_anchored (name : String) : (names.anchored anchor).lookup name =
    (names.lookup name).map fun binding => { binding with node := anchor } := by
  unfold lookup anchored
  induction names.top.visible with
  | nil => rfl
  | cons entry table ih =>
      rw [List.map_cons, List.lookup_cons, List.lookup_cons]
      cases name == entry.1 with
      | true => rfl
      | false => exact ih

theorem alike_anchored : names.Alike (names.anchored anchor) := by
  intro name
  rw [lookup_anchored, Option.map_map]
  rfl

theorem anchored_alike : (names.anchored anchor).Alike names :=
  fun name => (alike_anchored anchor name).symm

theorem Forgets.anchored (forgets : names.Forgets others) :
    (names.anchored anchor).Forgets (others.anchored anchor) := by
  refine ⟨⟨?_, rfl, rfl⟩, .nil⟩
  unfold Scopes.anchored
  rw [List.forall₂_map_left_iff, List.forall₂_map_right_iff]
  refine forgets.top.visible.imp ?_
  rintro one other ⟨same, binding⟩
  exact ⟨same, binding.type, rfl, binding.kind⟩

theorem nodes_anchored {id : NodeId} (member : id ∈ (names.anchored anchor).nodes) : id = anchor := by
  simp only [nodes, anchored, Frame.nodes, List.map_nil, List.append_nil, List.flatMap_nil,
    List.map_map, List.mem_map] at member
  rcases member with ⟨entry, -, same⟩
  exact same.symm

end Scopes

namespace ParsedModule

open Inference

variable {parsed : ParsedModule} {limit : Position} {node : NodeId}

/-- An expression of a parsed module, under names that are declared by the root. -/
theorem Proper.ready (proper : parsed.Proper limit)
    (admitted : parsed.tree.arena.Admitted .expression node) (names : Scopes) :
    Ready limit parsed.tree node (under (.initial parsed.tree) (names.anchored parsed.root)) := by
  have constructed := proper.constructed
  rcases proper.root with ⟨modules, imports, functions, root⟩
  refine ⟨⟨Nat.le_refl _, ?_, ?_, List.forall_mem_nil _, fun _ _ => rfl⟩, fun _ _ => rfl,
    fun _ _ => rfl, ?_⟩
  · intro id span found
    refine ⟨(constructed.recorded id).mp ?_, constructed.bounded found⟩
    rw [show parsed.tree.spans.span? id = some span from found]
    rfl
  · intro id member
    rw [Scopes.nodes_anchored parsed.root member]
    exact (constructed.recorded parsed.root).mpr (Arena.kind_bound root)
  · intro id below member
    rw [Scopes.nodes_anchored parsed.root member, below_singleton] at below
    rcases Arena.inner_below constructed rfl admitted below with
      ⟨category, inner, kind, found, admits⟩
    cases root.symm.trans found
    cases category with
    | type | target | place | expression => cases admits
    | _ => cases inner

/-- Where nothing is reported about an expression, nothing is reported when the types of
some variables are forgotten, and every type that is found then is unknown or the same;
unless a call below is misled about the function that is meant. -/
theorem expression_forgets {text fileName : String} (wasParsed : ofText text fileName = .ok parsed)
    (environment : Environment) (admitted : parsed.tree.arena.Admitted .expression node)
    {names others : Scopes} (forgets : names.Forgets others) {type : Option Ty}
    {final : InferenceState}
    (ran : Ran (expression environment node) (under (.initial parsed.tree) names) type final)
    (quiet : final.diagnostics = []) :
    ∃ other last,
      Ran (expression environment node) (under (.initial parsed.tree) others) other last ∧
      (last.diagnostics = [] ∨ ∃ call, parsed.tree.arena.Reachable node call ∧
        Misled environment parsed.tree final.type? last.type? call) ∧
      ∀ id, parsed.tree.arena.Reachable node id → parsed.tree.arena.Admitted .expression id →
        Vaguer (last.type? id) (final.type? id) ∨ ∃ call, parsed.tree.arena.Reachable id call ∧
          Misled environment parsed.tree final.type? last.type? call := by
  rcases of_text_proper text fileName with ⟨again, parsedAgain, proper, -⟩
  cases wasParsed.symm.trans parsedAgain
  have constructed := proper.constructed
  have here := proper.ready admitted names
  have there := proper.ready admitted others
  rcases transfers_expression environment (Scopes.alike_anchored parsed.root) node _ _ _ rfl ran with
    ⟨-, moved⟩
  rcases yields_iff.mp (yields_expression (fun _ => False) constructed admitted there.sound
    there.untouched) with ⟨other, last, ranOther, -⟩
  rcases transfers_expression environment (Scopes.anchored_alike parsed.root) node _ _ _ rfl ranOther
    with ⟨-, back⟩
  refine ⟨other, under last others, back, ?_⟩
  exact told_vaguer constructed (told_of_expression constructed admitted here moved).1
    (told_of_expression constructed admitted there ranOther).1 (forgets.anchored parsed.root) quiet

/-- A variable whose type may be forgotten, beside one whose type is known. -/
def remembering (type : Option Ty) : Scopes :=
  (Scopes.empty.declare "v" ⟨some .long, ⟨5⟩, .parameter⟩).declare "w" ⟨type, ⟨3⟩, .parameter⟩

theorem remembering_forgets (type : Option Ty) : (remembering type).Forgets (remembering none) := by
  refine ⟨⟨?_, rfl, rfl⟩, .nil⟩
  exact .cons ⟨rfl, vaguer_none type, rfl, rfl⟩ (.cons ⟨rfl, vaguer_refl _, rfl, rfl⟩ .nil)

/-- How much is reported about a node of a module, if it is an expression. -/
def reports? (environment : Environment) (node : NodeId) (names : Scopes) (parsed : ParsedModule) :
    Option Nat :=
  if (parsed.tree.arena.kind? node).any NodeKind.isExpression then
    match (expression environment node).run (under (.initial parsed.tree) names) with
    | .ok _ final => some final.diagnostics.length
    | .error _ _ => none
  else none

theorem ran_of_reports {environment : Environment} {names : Scopes} {count : Nat}
    (said : reports? environment node names parsed = some count) :
    parsed.tree.arena.Admitted .expression node ∧ ∃ type final,
      Ran (expression environment node) (under (.initial parsed.tree) names) type final ∧
      final.diagnostics.length = count := by
  unfold reports? at said
  split at said
  · rename_i expression'
    rcases Option.any_eq_true _ _ |>.mp expression' with ⟨kind, found, admits⟩
    refine ⟨⟨kind, found, admits⟩, ?_⟩
    split at said
    · rename_i type final ran
      exact ⟨type, final, ran, Option.some.inj said⟩
    · cases said
  · cases said

/-- In `v + w` the operand `w` is put inside a cast only while its type is known. -/
theorem expression_forgets_operand : ∃ parsed type final other last,
    ofText "module m; fn f(int w, long v) { n := v + w; }" "m.plp" = .ok parsed ∧
    parsed.tree.arena.Admitted .expression ⟨10⟩ ∧
    (remembering (some .int)).Forgets (remembering none) ∧
    Ran (expression ⟨"m.plp", .empty, []⟩ ⟨10⟩)
      (under (.initial parsed.tree) (remembering (some .int))) type final ∧
    final.diagnostics = [] ∧
    Ran (expression ⟨"m.plp", .empty, []⟩ ⟨10⟩) (under (.initial parsed.tree) (remembering none))
      other last ∧
    (last.diagnostics = [] ∨ ∃ call, parsed.tree.arena.Reachable ⟨10⟩ call ∧
      Misled ⟨"m.plp", .empty, []⟩ parsed.tree final.type? last.type? call) := by
  rcases of_text_proper "module m; fn f(int w, long v) { n := v + w; }" "m.plp" with
    ⟨parsed, wasParsed, -, -⟩
  have said : (ofText "module m; fn f(int w, long v) { n := v + w; }" "m.plp").toOption.bind
      (reports? ⟨"m.plp", .empty, []⟩ ⟨10⟩ (remembering (some .int))) = some 0 := by
    decide +kernel
  rw [wasParsed] at said
  rcases ran_of_reports said with ⟨admitted, type, final, ran, quiet⟩
  have silent : final.diagnostics = [] := List.eq_nil_of_length_eq_zero quiet
  rcases expression_forgets wasParsed ⟨"m.plp", .empty, []⟩ admitted (remembering_forgets _) ran
    silent with ⟨other, last, again, reported, -⟩
  exact ⟨parsed, type, final, other, last, wasParsed, admitted, remembering_forgets _, ran, silent,
    again, reported⟩

/-- Two functions of one name, the first of which takes an `int`. -/
def overloads : Environment :=
  ⟨"m.plp", ⟨[], [.known "g" [.int] .int, .known "g" [.string] .string], []⟩, []⟩

/-- With `w` a string, `g(w).length` is the length of a string. When the type of `w` is
forgotten, the call is one of the first function, and an `int` has no length. -/
theorem member_of_misled_call : ∃ parsed,
    ofText "module m; fn f(Widget w) { n := g(w).length; }" "m.plp" = .ok parsed ∧
    parsed.tree.arena.Admitted .expression ⟨8⟩ ∧
    (remembering (some .string)).Forgets (remembering none) ∧
    (∃ type final, Ran (expression overloads ⟨8⟩)
      (under (.initial parsed.tree) (remembering (some .string))) type final ∧
      final.diagnostics = []) ∧
    ∃ type final, Ran (expression overloads ⟨8⟩)
      (under (.initial parsed.tree) (remembering none)) type final ∧ final.diagnostics ≠ [] := by
  rcases of_text_proper "module m; fn f(Widget w) { n := g(w).length; }" "m.plp" with
    ⟨parsed, wasParsed, -, -⟩
  have quiet : (ofText "module m; fn f(Widget w) { n := g(w).length; }" "m.plp").toOption.bind
      (reports? overloads ⟨8⟩ (remembering (some .string))) = some 0 := by
    decide +kernel
  have loud : (ofText "module m; fn f(Widget w) { n := g(w).length; }" "m.plp").toOption.bind
      (reports? overloads ⟨8⟩ (remembering none)) = some 1 := by
    decide +kernel
  rw [wasParsed] at quiet loud
  rcases ran_of_reports quiet with ⟨admitted, type, final, ran, silent⟩
  rcases ran_of_reports loud with ⟨-, other, last, again, one⟩
  refine ⟨parsed, wasParsed, admitted, remembering_forgets _,
    ⟨type, final, ran, List.eq_nil_of_length_eq_zero silent⟩, other, last, again, ?_⟩
  intro nothing
  rw [nothing] at one
  cases one

end ParsedModule

end ModuleLang
