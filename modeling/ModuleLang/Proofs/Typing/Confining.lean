import ModuleLang.Proofs.Typing.Void

/-!
Expressions of type `void` in the functions of an accepted module. The variables that a
statement makes visible are of other types, and a statement refuses values of type `void`
but for what a function returns. So whatever is of this type stands alone in a body, or
below a node that takes it.
-/

namespace ModuleLang.Inference

variable {limit : Position} {environment : Environment} {origin tree : SourceTree}
  {root function : NodeId} {names last : Scopes} {loops : Nat} {result : Option Ty}
  {nodes functions : List NodeId} {reports : List Diagnostic}

/-- What is known of the nodes from some nodes on: types are written where types stand,
and arrays have types that can be read. -/
structure Surveyed (host : Host) (tree : SourceTree) (nodes : List NodeId) : Prop where
  types : ∀ {node id kind child}, node ∈ nodes → tree.arena.Reachable node id →
    tree.arena.kind? id = some kind → (Category.type, child) ∈ kind.slots →
    tree.arena.Admitted .type child
  arrays : ∀ {node id target index}, node ∈ nodes → tree.arena.Reachable node id →
    tree.arena.kind? id = some (.indexAccess target index) → tree.arena.Reads host target

namespace Surveyed

variable {host : Host} {node : NodeId} {held : NodeKind NodeId} {rest some : List NodeId}

theorem part (surveyed : Surveyed host tree nodes) (subset : some ⊆ nodes) :
    Surveyed host tree some where
  types member := surveyed.types (subset member)
  arrays member := surveyed.arrays (subset member)

theorem below (surveyed : Surveyed host tree (node :: rest))
    (found : tree.arena.kind? node = .some held) (subset : some ⊆ held.children) :
    Surveyed host tree some := by
  have lower : ∀ {child}, child ∈ some → child ∈ tree.arena.children node := by
    intro child member
    exact Arena.child_of_kind found (subset member)
  exact ⟨fun member path => surveyed.types List.mem_cons_self (path.below_child (lower member)),
    fun member path => surveyed.arrays List.mem_cons_self (path.below_child (lower member))⟩

end Surveyed

/-- Whatever is of type `void` below some nodes stands where it may. -/
def Confines (environment : Environment) (result : Option Ty) (tree : SourceTree)
    (nodes : List NodeId) : Prop :=
  ∀ node ∈ nodes, ∀ id kind, tree.arena.Reachable node id → tree.arena.kind? id = some kind →
    ∀ operand ∈ kind.children, tree.arena.IsVoid operand →
      tree.arena.TakesVoid environment result id kind operand

namespace Confines

variable {node : NodeId} {held : NodeKind NodeId} {first second parts : List NodeId}

theorem append (left : Confines environment result tree first)
    (right : Confines environment result tree second) :
    Confines environment result tree (first ++ second) := by
  intro node member
  rcases List.mem_append.mp member with member | member
  · exact left node member
  · exact right node member

/-- A node that takes its own operands is confined with its children. -/
theorem of_children (found : tree.arena.kind? node = some held)
    (own : ∀ operand ∈ held.children, tree.arena.IsVoid operand →
      tree.arena.TakesVoid environment result node held operand)
    (children : held.children ⊆ parts) (confines : Confines environment result tree parts) :
    Confines environment result tree [node] := by
  intro other member id kind path known operand inside void
  rw [List.mem_singleton.mp member] at path
  rcases Arena.reachable_cases path with rfl | ⟨child, slot, path⟩
  · cases found.symm.trans known
    exact own operand inside void
  · rw [Arena.children_of_kind found] at slot
    exact confines child (children slot) id kind path known operand inside void

/-- A definition holds nothing but the type that is written in it. -/
theorem of_definition {host : Host} {written : Option NodeId} {name : String}
    (surveyed : Surveyed host tree [node])
    (defines : tree.arena.kind? node = some (.definition written name)) :
    Confines environment result tree [node] := by
  have admitted : ∀ child ∈ written.toList, tree.arena.Admitted .type child := by
    intro child member
    apply surveyed.types List.mem_cons_self .refl defines
    simpa [NodeKind.slots] using member
  refine of_children defines (fun operand member void => ?_) (List.Subset.refl written.toList) ?_
  · exact absurd (admitted operand member) void.not_written
  · intro child member id kind path known operand inside void
    rcases admitted child member with ⟨spelled, found, admits⟩
    cases spelled with
    | typeRef =>
        rcases Arena.reachable_cases path with rfl | ⟨_, slot, -⟩
        · cases found.symm.trans known
          cases inside
        · rw [Arena.children_of_kind found] at slot
          cases slot
    | _ => cases admits

end Confines

section Statements

variable {node : NodeId} (described : environment.host.Described)
  (solid : ∀ name, ∀ signature ∈ candidates environment name, signature.Solid)

include described solid

theorem Accepted.confines (accepted : Accepted environment names tree nodes reports)
    (surveyed : Surveyed environment.host tree nodes) :
    Confines environment result tree nodes := by
  intro node member id kind path found operand inside void
  rcases accepted.within member path with ⟨_, inner, added, entry, -⟩
  cases found.symm.trans entry.found
  exact takes_of_entry described solid entry
    (fun slot => surveyed.types member path found slot) inside void

/-- An assignment to a definition that was made for it holds no value of type `void`. -/
theorem Accepted.confines_introduced {target value : NodeId} {written : Option NodeId}
    {name : String} (parts : Accepted environment names tree [value] reports)
    (surveyed : Surveyed environment.host tree [node])
    (found : tree.arena.kind? node = some (.assign .assign target value))
    (defines : tree.arena.kind? target = some (.definition written name))
    (other : tree.arena.type? value ≠ some .void) : Confines environment result tree [node] := by
  have below := surveyed.below found (List.Subset.refl [target, value])
  have first : Confines environment result tree [target] :=
    .of_definition (below.part (by simp)) defines
  have second : Confines environment result tree [value] :=
    parts.confines described solid (below.part (by simp))
  refine .of_children found (fun operand member void => ?_) (List.Subset.refl _)
    (first.append second)
  rcases List.mem_pair.mp member with rfl | rfl
  · exact absurd defines void.not_definition
  · exact absurd void.2 other

/-- One statement keeps the variables from being of type `void`, and takes no operand of
this type but the returned one. -/
theorem Complies.confines
    (complies : Complies environment result tree loops names node last reports)
    (surveyed : Surveyed environment.host tree [node]) (known : ∃ type, result = some type)
    (bound : Bound tree.arena (fun id => tree.arena.type? id ≠ some .void) names) :
    Bound tree.arena (fun id => tree.arena.type? id ≠ some .void) last ∧
      Confines environment result tree [node] := by
  cases complies with
  | evaluate found alone parts => exact ⟨bound, parts.confines described solid surveyed⟩
  | @returns value _ found parts rule =>
      have below := surveyed.below found (List.Subset.refl value.toList)
      refine ⟨bound, .of_children found (fun operand member void => ?_)
        (List.Subset.refl value.toList) (parts.confines described solid below)⟩
      cases value with
      | none => cases member
      | some value =>
          cases List.mem_singleton.mp member
          rcases known with ⟨expected, rfl⟩
          rcases rule _ rfl expected rfl with ⟨other, fits⟩
          exact congrArg some (any_of_void_fits (fits _ void.2) other)
  | jump isJump =>
      refine ⟨bound, ?_⟩
      rcases isJump with found | found
      all_goals
        refine .of_children found (fun operand member => ?_) (List.Subset.refl []) ?_
        · cases member
        · exact fun _ member => by cases member
  | @assign operator target value kind _ found parts other rule there place =>
      have below : Surveyed environment.host tree [value, target] :=
        surveyed.below found (by simp [NodeKind.children])
      refine ⟨bound, .of_children found (fun operand member void => ?_) (by simp [NodeKind.children])
        (parts.confines described solid below)⟩
      rcases List.mem_pair.mp member with rfl | rfl
      · have inside : operand ∈ [value, operand] := by simp
        rcases parts.within inside .refl with ⟨_, inner, added, entry, -⟩
        cases there.symm.trans entry.found
        refine absurd void.2 (place_of_entry described bound entry place ?_)
        rintro target index rfl
        exact below.arrays inside .refl there
      · exact absurd void.2 other
  | @define target value written name _ found parts other rule defines unseen free =>
      have below : Surveyed environment.host tree [value, target] :=
        surveyed.below found (by simp [NodeKind.children])
      have inside : target ∈ [value, target] := by simp
      rcases parts.within inside .refl with ⟨_, inner, added, entry, -⟩
      cases defines.symm.trans entry.found
      rcases declared_of_entry entry (Or.inr rfl)
        (fun slot => below.types inside .refl defines slot) with ⟨type, typed, notVoid⟩
      refine ⟨bound.declare ⟨Or.inr ⟨_, defines⟩, rfl⟩ ?_, .of_children found
        (fun operand member void => ?_) (by simp [NodeKind.children])
        (parts.confines described solid below)⟩
      · rw [typed]
        exact fun same => notVoid (Option.some.inj same)
      · rcases List.mem_pair.mp member with rfl | rfl
        · exact absurd defines void.not_definition
        · exact absurd void.2 other
  | @introduce target value written name type _ found parts held empty other defines typed spells =>
      have notVoid : some type ≠ some .void := fun same => other (Option.some.inj same)
      exact ⟨bound.declare ⟨Or.inr ⟨_, defines⟩, typed⟩ (typed ▸ notVoid),
        parts.confines_introduced described solid surveyed found defines (held ▸ notVoid)⟩
  | @guess target value name _ found parts empty defines untyped =>
      have notVoid : tree.arena.type? value ≠ some .void := fun same => by cases empty _ same
      exact ⟨bound.declare ⟨Or.inr ⟨_, defines⟩, untyped⟩ (by simp [untyped]),
        parts.confines_introduced described solid surveyed found defines notVoid⟩

/-- Whatever is of type `void` in statements stands where it may. -/
theorem Proceeds.confines
    (proceeds : Proceeds environment result tree loops names nodes last reports)
    (surveyed : Surveyed environment.host tree nodes) (known : ∃ type, result = some type)
    (bound : Bound tree.arena (fun id => tree.arena.type? id ≠ some .void) names) :
    Bound tree.arena (fun id => tree.arena.type? id ≠ some .void) last ∧
      Confines environment result tree nodes := by
  -- A predicate is a `bool`, and a body is no expression.
  have decides : ∀ {predicate operand : NodeId} {bodies : List NodeId},
      IfKnown (tree.arena.type? predicate) (· = .bool) →
      (∀ block ∈ bodies, ∃ statements, tree.arena.kind? block = some (.body statements)) →
      operand ∈ predicate :: bodies → ¬ tree.arena.IsVoid operand := by
    intro predicate operand bodies bool blocks member void
    rcases List.mem_cons.mp member with rfl | member
    · cases bool _ void.2
    · rcases blocks operand member with ⟨statements, held⟩
      exact void.not_body held
  induction proceeds with
  | nil => exact ⟨bound, fun _ member => by cases member⟩
  | @step loops names node rest middle last said more here after ih =>
      rcases here.confines described solid (surveyed.part (by simp)) known bound with ⟨bound, own⟩
      rcases ih (surveyed.part (by simp)) bound with ⟨bound, behind⟩
      exact ⟨bound, own.append behind⟩
  | @body loops names node statements rest inner last said more found inside after ihInside ih =>
      rcases ihInside (surveyed.below found (List.Subset.refl _)) bound.push with ⟨bound, parts⟩
      rcases ih (surveyed.part (by simp)) bound.pop with ⟨bound, behind⟩
      have own : Confines environment result tree [node] :=
        .of_children found (fun _ _ _ => trivial) (List.Subset.refl _) parts
      exact ⟨bound, own.append behind⟩
  | @condition loops names node predicate thenBody elseBody rest _ _ _ _ _ _ _ found decided bool
      blocks thenPart elsePart after ihThen ihElse ih =>
      have below := surveyed.below found
        (List.Subset.refl (predicate :: thenBody :: elseBody.toList))
      have first : Confines environment result tree [predicate] :=
        decided.confines described solid (below.part (by simp))
      rcases ihThen (below.part (by simp)) bound with ⟨bound, second⟩
      rcases ihElse (below.part (by simp)) bound with ⟨bound, third⟩
      rcases ih (surveyed.part (by simp)) bound with ⟨bound, behind⟩
      have own : Confines environment result tree [node] :=
        .of_children found (fun _ member void => absurd void (decides bool blocks member))
          (List.Subset.refl _) ((first.append second).append third)
      exact ⟨bound, own.append behind⟩
  | @loop loops names node predicate block statements rest _ _ _ _ _ found decided bool held inside
      after ihInside ih =>
      have below := surveyed.below found (List.Subset.refl [predicate, block])
      have first : Confines environment result tree [predicate] :=
        decided.confines described solid (below.part (by simp))
      have blocks : ∀ other ∈ [block], ∃ statements,
          tree.arena.kind? other = some (.body statements) := by
        intro other member
        exact ⟨statements, by rw [List.mem_singleton.mp member]; exact held⟩
      rcases ihInside (below.part (by simp)) bound with ⟨bound, second⟩
      rcases ih (surveyed.part (by simp)) bound with ⟨bound, behind⟩
      have own : Confines environment result tree [node] :=
        .of_children found (fun _ member void => absurd void (decides bool blocks member))
          (List.Subset.refl _) (first.append second)
      exact ⟨bound, own.append behind⟩

end Statements

section Functions

/-- The signature of an accepted function: none of its parameters is of type `void`, and
its result is known. -/
theorem Endorsed.signature (endorsed : Endorsed environment tree function reports)
    (engrafted : SourceTree.Engrafted limit origin tree root)
    (above : tree.arena.Reachable root function) :
    ∃ signature, tree.arena.signature? function = some signature ∧ signature.Solid ∧
      ∃ type, signature.result = some type := by
  rcases endorsed with ⟨found, heads, -⟩
  rename_i result name parameters block last
  have known := heads_anywhere found heads engrafted above
  have declared : ∀ parameter ∈ parameters,
      ∃ type, tree.arena.type? parameter = some type ∧ type ≠ .void := by
    intro parameter member
    have slot : (Category.parameter, parameter) ∈
        (NodeKind.function result name parameters block).slots := by
      simp [NodeKind.slots, member]
    have child : parameter ∈ tree.arena.children function :=
      Arena.child_of_kind found (NodeKind.slot_is_child slot)
    rcases engrafted.sorted above found slot (by simp) with ⟨kind, same, admits⟩
    rcases known.within (List.mem_append_right _ member) .refl with ⟨_, _, _, entry, -⟩
    cases same.symm.trans entry.found
    cases kind with
    | parameter written name =>
        exact declared_of_entry entry (Or.inl rfl) fun slot =>
          engrafted.sorted (above.tail child) same slot (by simp)
    | _ => cases admits
  refine ⟨⟨name, parameters.map tree.arena.type?, tree.arena.resultType result⟩, ?_, ?_, ?_⟩
  · unfold Arena.signature?
    rw [found]
  · intro parameter member
    rcases List.mem_map.mp member with ⟨id, inside, rfl⟩
    exact declared id inside
  · cases result with
    | none => exact ⟨.void, rfl⟩
    | some written =>
        have slot : (Category.type, written) ∈
            (NodeKind.function (some written) name parameters block).slots := by
          simp [NodeKind.slots]
        rcases written_of_accepted known (by simp) (engrafted.sorted above found slot (by simp)) with
          ⟨type, typed, -⟩
        exact ⟨type, typed⟩

/-- Whatever is of type `void` in a function stands where it may. -/
theorem Endorsed.confines (endorsed : Endorsed environment tree function reports)
    (engrafted : SourceTree.Engrafted limit origin tree root)
    (above : tree.arena.Reachable root function) (described : environment.host.Described)
    (solid : ∀ name, ∀ signature ∈ candidates environment name, signature.Solid)
    (surveyed : Surveyed environment.host tree [function]) {signature : Signature}
    (own : tree.arena.signature? function = some signature) :
    Confines environment signature.result tree [function] := by
  rcases endorsed.signature engrafted above with ⟨_, same, parameters, result⟩
  cases own.symm.trans same
  rcases endorsed with ⟨found, heads, body⟩
  rename_i returned name params block last
  unfold Arena.signature? at own
  rw [found] at own
  cases own
  have below := surveyed.below found (List.Subset.refl _)
  have first : Confines environment (tree.arena.resultType returned) tree
      (returned.toList ++ params) :=
    (heads_anywhere found heads engrafted above).confines described solid
      (below.part (List.subset_append_left _ _))
  have visible : Bound tree.arena (fun id => tree.arena.type? id ≠ some .void)
      (tree.arena.parameterScopes params) := by
    refine bound_parameters fun parameter member void => ?_
    rcases parameters _ (List.mem_map_of_mem member) with ⟨type, typed, other⟩
    exact other (Option.some.inj (typed.symm.trans void))
  have second := (body.confines described solid (below.part (List.subset_append_right _ _)) result
    visible).2
  -- Neither types nor parameters nor bodies are expressions.
  refine .of_children found (fun operand member void => ?_) (List.Subset.refl _)
    (first.append second)
  rcases void.1 with ⟨kind, known, computes⟩
  rw [← NodeKind.slots_are_children] at member
  rcases List.mem_map.mp member with ⟨⟨category, _⟩, slot, rfl⟩
  have categories : category = .type ∨ category = .parameter ∨ category = .body := by
    simp only [NodeKind.slots, List.mem_append, List.mem_map, List.mem_singleton] at slot
    rcases slot with (⟨_, -, same⟩ | ⟨_, -, same⟩) | same
    · exact Or.inl (congrArg Prod.fst same).symm
    · exact Or.inr (Or.inl (congrArg Prod.fst same).symm)
    · exact Or.inr (Or.inr (congrArg Prod.fst same))
  rcases engrafted.sorted above found slot (by rintro rfl; simp at categories) with
    ⟨held, stands, admits⟩
  cases known.symm.trans stands
  rcases categories with rfl | rfl | rfl
  all_goals cases kind <;> first | cases admits; done | cases computes

theorem surveyed_of_reads {host : Host} (engrafted : SourceTree.Engrafted limit origin tree root)
    (above : tree.arena.Reachable root function)
    (reads : ∀ id kind, tree.arena.Reachable function id → tree.arena.kind? id = some kind →
      kind.isTyped = true → tree.arena.Reads host id) : Surveyed host tree [function] where
  types {node id kind child} member path found slot := by
    rw [List.mem_singleton.mp member] at path
    exact engrafted.sorted (above.trans path) found slot (by simp)
  arrays {node id target index} member path found := by
    rw [List.mem_singleton.mp member] at path
    have slot : (Category.expression, target) ∈ (NodeKind.indexAccess target index).slots := by
      simp [NodeKind.slots]
    rcases engrafted.sorted (above.trans path) found slot (by simp) with ⟨kind, known, computes⟩
    have child : target ∈ tree.arena.children id :=
      Arena.child_of_kind found (NodeKind.slot_is_child slot)
    have typed : kind.isTyped = true := by
      unfold NodeKind.isTyped
      rw [show kind.isExpression = true from computes, Bool.true_or]
    exact reads target kind (path.tail child) known typed

/-- No function that may be called asks for an argument of type `void`. -/
theorem EndorsedAll.solid (endorsed : EndorsedAll environment tree functions reports)
    (engrafted : SourceTree.Engrafted limit origin tree root)
    (above : ∀ function ∈ functions, tree.arena.Reachable root function)
    (described : environment.host.Described)
    (own : environment.functions = functions.filterMap tree.arena.signature?) :
    ∀ name, ∀ signature ∈ candidates environment name, signature.Solid := by
  intro name signature candidate
  rcases candidate_cases candidate with inside | intrinsic | offered
  · rw [own] at inside
    rcases List.mem_filterMap.mp inside with ⟨function, member, found⟩
    rcases endorsed with ⟨each, matched, -⟩
    rcases partner_of_member matched.flip member with ⟨said, -, endorsed⟩
    rcases endorsed.signature engrafted (above function member) with ⟨_, same, solid, -⟩
    cases found.symm.trans same
    exact solid
  · exact Signature.solid_of_intrinsic signature intrinsic
  · exact described.solid offered

/-- Whatever is of type `void` in the functions of an accepted module stands where it
may. -/
theorem EndorsedAll.confines (endorsed : EndorsedAll environment tree functions reports)
    (engrafted : SourceTree.Engrafted limit origin tree root)
    (above : ∀ function ∈ functions, tree.arena.Reachable root function)
    (described : environment.host.Described)
    (own : environment.functions = functions.filterMap tree.arena.signature?) :
    ∀ function ∈ functions, ∃ signature, tree.arena.signature? function = some signature ∧
      Confines environment signature.result tree [function] := by
  have hereditary : Hereditary environment.host environment.host.Reads reports :=
    hereditary_reads described
  have results := endorsed.results engrafted above hereditary
  rw [← own] at results
  have hands := hands_of_hereditary hereditary results engrafted above (if_known_none _)
  have reads := hands.of_accounts (endorsed.accounts engrafted above hands (List.Subset.refl _))
    (List.Subset.refl _)
  have solid := endorsed.solid engrafted above described own
  rcases endorsed with ⟨each, matched, -⟩
  intro function member
  rcases partner_of_member matched.flip member with ⟨said, -, endorsed⟩
  rcases endorsed.signature engrafted (above function member) with ⟨signature, same, -⟩
  have surveyed := surveyed_of_reads engrafted (above function member) (reads function member)
  exact ⟨signature, same,
    endorsed.confines engrafted (above function member) described solid surveyed same⟩

end Functions

end ModuleLang.Inference
