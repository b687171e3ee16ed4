import ModuleLang.Proofs.Typing.Frame
import ModuleLang.Proofs.Validation.Paths

/-!
Jumps outside loops. Inference counts the loops around a statement, and reports a
jump where it counts none. It is shown that the count is that of the parsed tree:
some jump is reported exactly if `break` or `continue` stands in a function and
in no loop of it.
-/

namespace ModuleLang

/-- What a slot inside a statement or an expression is for. -/
def Category.isInner : Category → Bool
  | type | target | place | expression => true
  | _ => false

namespace NodeKind

variable {slot : Type}

/-- Whether statements or declarations may stand in the slots of a node. -/
def isOuter : NodeKind slot → Bool
  | root .. | function .. | body _ | condition .. | loop .. => true
  | _ => false

theorem inner_of_not_outer {kind : NodeKind slot} (inner : kind.isOuter = false) :
    ∀ held ∈ kind.slots, held.1.isInner = true := by
  intro held member
  cases kind with
  | root | function | body | condition | loop => cases inner
  | moduleDef | useDef | breakLoop | continueLoop | member | literal | typeRef => cases member
  | call | construct | returnFrom | definition =>
      simp only [slots, List.mem_cons, List.mem_map] at member
      grind [Category.isInner]
  | assign operator target value =>
      simp only [slots, List.mem_cons, List.not_mem_nil, or_false] at member
      cases operator <;> grind [Category.isInner, AssignOperator.side]
  | parameter | newArray | cast | memberAccess | indexAccess | binary | unary =>
      simp only [slots, List.mem_cons, List.not_mem_nil, or_false] at member
      grind [Category.isInner]

/-- Neither expressions, types and targets nor statements that hold no others are
outer. -/
theorem not_outer_of_inner {kind : NodeKind slot} {category : Category}
    (inner : category.isInner = true) (admits : category.admits kind = true) :
    kind.isOuter = false := by
  cases category with
  | type | target | place | expression => cases kind <;> first | rfl | cases admits
  | _ => cases inner

theorem not_outer_of_leaf {kind : NodeKind slot} (plain : kind.isNested = false)
    (statement : kind.isStatement = true) : kind.isOuter = false := by
  cases kind with
  | root | function => cases statement
  | body | condition | loop => cases plain
  | _ => rfl

end NodeKind

namespace Arena

variable {arena : Arena} {node : NodeId}

theorem strays_iff : arena.Strays node ↔ arena.IsJump node ∨
    ((∀ predicate block, arena.kind? node ≠ some (.loop predicate block)) ∧
      ∃ child ∈ arena.children node, arena.Strays child) := by
  constructor
  · rintro ⟨jump, below, isJump⟩
    obtain same | ⟨child, ⟨inside, solid⟩, rest⟩ := Relation.ReflTransGen.cases_head below
    · exact Or.inl (same ▸ isJump)
    · exact Or.inr ⟨solid, child, inside, jump, rest, isJump⟩
  · rintro (jump | ⟨solid, child, inside, strays⟩)
    · exact strays_of_jump jump
    · exact strays_of_child inside solid strays

section Constructed

variable {limit : Position} {tree : SourceTree} (constructed : tree.Constructed limit)

include constructed

/-- Below expressions, types and targets stand such only. -/
theorem inner_below {category : Category} {node id : NodeId} (inner : category.isInner = true)
    (admitted : tree.arena.Admitted category node) (below : tree.arena.Reachable node id) :
    ∃ category : Category, category.isInner = true ∧ tree.arena.Admitted category id := by
  induction below with
  | refl => exact ⟨category, inner, admitted⟩
  | tail _ inside ih =>
      obtain ⟨category, inner, kind, found, admits⟩ := ih
      rw [children_of_kind found] at inside
      obtain ⟨held, slot⟩ := NodeKind.child_has_slot inside
      exact ⟨held, NodeKind.inner_of_not_outer (NodeKind.not_outer_of_inner inner admits) _ slot,
        constructed.admitted found _ slot⟩

/-- No jump is among them. -/
theorem not_strays_of_inner {category : Category} {node : NodeId}
    (inner : category.isInner = true) (admitted : tree.arena.Admitted category node) :
    ¬ tree.arena.Strays node := by
  rintro ⟨jump, unlooped, isJump⟩
  have below : tree.arena.Reachable node jump := unlooped.lift id fun _ _ step => step.1
  obtain ⟨category, inner, kind, found, admits⟩ := inner_below constructed inner admitted below
  obtain isJump | isJump := isJump <;> cases found.symm.trans isJump
  all_goals
    cases category with
    | type | target | place | expression => cases admits
    | _ => cases inner

variable {node : NodeId}

/-- A statement that holds no others strays only as a jump. -/
theorem strays_leaf {kind : NodeKind NodeId} (found : tree.arena.kind? node = some kind)
    (plain : kind.isNested = false) (statement : kind.isStatement = true) :
    tree.arena.Strays node ↔ tree.arena.IsJump node := by
  rw [strays_iff]
  refine ⟨?_, Or.inl⟩
  rintro (jump | ⟨-, child, inside, strays⟩)
  · exact jump
  · rw [children_of_kind found] at inside
    obtain ⟨held, slot⟩ := NodeKind.child_has_slot inside
    exact absurd strays (not_strays_of_inner constructed
      (NodeKind.inner_of_not_outer (NodeKind.not_outer_of_leaf plain statement) _ slot)
      (constructed.admitted found _ slot))

omit constructed in
theorem strays_body {statements : List NodeId}
    (found : tree.arena.kind? node = some (.body statements)) :
    tree.arena.Strays node ↔ ∃ statement ∈ statements, tree.arena.Strays statement := by
  rw [strays_iff, children_of_kind found]
  simp [IsJump, found, NodeKind.children]

omit constructed in
theorem not_strays_loop {predicate block : NodeId}
    (found : tree.arena.kind? node = some (.loop predicate block)) : ¬ tree.arena.Strays node := by
  rw [strays_iff]
  simp [IsJump, found]

theorem strays_condition {predicate thenBody : NodeId} {elseBody : Option NodeId}
    (found : tree.arena.kind? node = some (.condition predicate thenBody elseBody)) :
    tree.arena.Strays node ↔
      tree.arena.Strays thenBody ∨ ∃ block ∈ elseBody.toList, tree.arena.Strays block := by
  have quiet : ¬ tree.arena.Strays predicate :=
    not_strays_of_inner constructed (show Category.expression.isInner = true from rfl)
      (constructed.admitted found (.expression, predicate) (by simp [NodeKind.slots]))
  rw [strays_iff, children_of_kind found]
  simp [IsJump, found, NodeKind.children, quiet]

/-- Only the body of a function holds jumps. -/
theorem strays_function {result : Option NodeId} {name : String} {parameters : List NodeId}
    {block : NodeId}
    (found : tree.arena.kind? node = some (.function result name parameters block)) :
    tree.arena.Strays node ↔ tree.arena.Strays block := by
  have quiet : ∀ child ∈ result.toList ++ parameters, ¬ tree.arena.Strays child := by
    intro child member
    obtain isResult | isParameter := List.mem_append.mp member
    · exact not_strays_of_inner constructed (show Category.type.isInner = true from rfl)
        (constructed.admitted found (.type, child) (by
          simp only [NodeKind.slots, List.mem_append, List.mem_map]
          exact Or.inl (Or.inl ⟨child, isResult, rfl⟩)))
    · obtain ⟨kind, known, admits⟩ := constructed.admitted found (.parameter, child)
        (by simp [NodeKind.slots, isParameter])
      cases kind with
      | parameter written name =>
          rw [strays_iff, children_of_kind known]
          have plain := not_strays_of_inner constructed (show Category.type.isInner = true from rfl)
            (constructed.admitted known (.type, written) (by simp [NodeKind.slots]))
          simp [IsJump, known, NodeKind.children, plain]
      | _ => cases admits
  rw [strays_iff, children_of_kind found]
  constructor
  · rintro (jump | ⟨-, child, inside, strays⟩)
    · simp [IsJump, found] at jump
    · obtain head | last := List.mem_append.mp inside
      · exact absurd strays (quiet child head)
      · rw [List.mem_singleton] at last
        exact last ▸ strays
  · exact fun strays => Or.inr ⟨by simp [found], block, by simp [NodeKind.children], strays⟩

end Constructed

end Arena

theorem DiagnosticKind.is_jump_iff (kind : DiagnosticKind) :
    kind.isJump = true ↔ kind.code = "SEM1022" := by
  cases kind <;> simp [isJump, code]

namespace Inference

variable {limit : Position} {origin : SourceTree} {environment : Environment}

/-- Whether a jump was reported. -/
def Warned (state : InferenceState) : Prop :=
  ∃ found ∈ state.diagnostics, found.kind.isJump = true

/-- Loops are counted as before, and no jump was reported. -/
def Quiet (before after : InferenceState) : Prop :=
  after.loopDepth = before.loopDepth ∧ (Warned after ↔ Warned before)

theorem quiet_frame : OpenFrame Quiet where
  refl _ := ⟨rfl, Iff.rfl⟩
  trans first second := ⟨second.1.trans first.1, second.2.trans first.2⟩
  tree _ _ := ⟨rfl, Iff.rfl⟩
  report state found other := by
    have other := (Bool.or_eq_false_iff.mp other).1
    refine ⟨rfl, ?_⟩
    simp [Warned, or_and_right, exists_or, other]
  scopes _ _ := ⟨rfl, Iff.rfl⟩
  repeated state duplicates found other _ := by
    refine ⟨rfl, ?_⟩
    simp [Warned, or_and_right, exists_or, other]

/-- The loops around nodes are counted, and a jump is reported if some of the nodes
stray where none is. -/
def Counted (origin : SourceTree) (nodes : List NodeId) (before after : InferenceState) : Prop :=
  after.loopDepth = before.loopDepth ∧
    (Warned after ↔ Warned before ∨
      (before.loopDepth = 0 ∧ ∃ node ∈ nodes, origin.arena.Strays node))

theorem Counted.nil (state : InferenceState) : Counted origin [] state state :=
  ⟨rfl, by simp⟩

theorem Counted.cons {node : NodeId} {rest : List NodeId} {before middle after : InferenceState}
    (first : Counted origin [node] before middle) (second : Counted origin rest middle after) :
    Counted origin (node :: rest) before after := by
  refine ⟨second.1.trans first.1, ?_⟩
  rw [second.2, first.2, first.1, or_assoc, ← and_or_left]
  simp

/-- What strays in a node strays in the nodes that it holds. -/
theorem Counted.of_parts {node : NodeId} {parts : List NodeId} {before after : InferenceState}
    (same : origin.arena.Strays node ↔ ∃ part ∈ parts, origin.arena.Strays part)
    (counted : Counted origin parts before after) : Counted origin [node] before after := by
  refine ⟨counted.1, ?_⟩
  rw [counted.2, ← same]
  simp

theorem Counted.after_quiet {nodes : List NodeId} {before middle after : InferenceState}
    (quiet : Quiet before middle) (counted : Counted origin nodes middle after) :
    Counted origin nodes before after := by
  refine ⟨counted.1.trans quiet.1, ?_⟩
  rw [counted.2, quiet.1, quiet.2]

theorem counted_of_quiet {node : NodeId} {before after : InferenceState}
    (kept : ¬ origin.arena.Strays node) (quiet : Quiet before after) :
    Counted origin [node] before after := by
  refine ⟨quiet.1, ?_⟩
  rw [quiet.2]
  simp [kept]

/-- A jump is reported where no loop is counted. -/
theorem counted_jump {node : NodeId} {keyword : Keyword} {before after : InferenceState}
    {value : Unit} (strays : origin.arena.Strays node)
    (ran : Ran (jump environment node keyword) before value after) :
    Counted origin [node] before after := by
  obtain ⟨_, _, got, ran⟩ := ran_bind.mp ran
  cases got
  split at ran
  · rename_i outside
    obtain ⟨found, same, rfl⟩ := report_adds ran
    refine ⟨rfl, iff_of_true ⟨found, by simp, ?_⟩ (Or.inr ⟨outside, node, by simp, strays⟩)⟩
    rw [same]
    rfl
  · rename_i inside
    cases ran
    exact ⟨rfl, by simp [inside]⟩

/-- A statement that holds no others, and is no jump. -/
theorem OpenFrame.keeps_leaf {relation : InferenceState → InferenceState → Prop}
    (frame : OpenFrame relation) {node now : NodeId} {kind : NodeKind NodeId}
    {check : NodeId → Inference NodeId} {before after : InferenceState}
    (known : origin.arena.kind? node = some kind) (plain : kind.isNested = false)
    (statement : kind.isStatement = true) (other : ¬ origin.arena.IsJump node)
    (ready : Ready limit origin node before)
    (ran : Ran (anyStatement environment check node) before now after) : relation before after := by
  have through : ∀ {value : Type} {action : Inference value},
      Ran (do let _ ← action; return node) before now after → Keeps relation action →
      relation before after := by
    intro value action ran keeps
    rcases ran_bind.mp ran with ⟨_, _, ran, rest⟩
    cases rest
    exact keeps _ _ _ ran
  rcases ran_bind.mp ran with ⟨_, _, got, ran⟩
  cases got
  rw [show before.tree.arena.kind? node = some kind from ready.kind.trans known] at ran
  cases kind with
  | body | condition | loop => cases plain
  | definition type name => exact frame.keeps_bare_definition environment _ _ _ _ _ _ ran
  | assign operator target value => exact through ran (frame.keeps_assignment environment _ _ _ _)
  | returnFrom value => exact through ran (frame.keeps_return environment _ _)
  | breakLoop => exact absurd (Or.inl known) other
  | continueLoop => exact absurd (Or.inr known) other
  | call | construct | unary => exact through ran (frame.keeps_expression environment _)
  | _ => cases statement

theorem counted_leaf (constructed : origin.Constructed limit) {node now : NodeId}
    {kind : NodeKind NodeId} {check : NodeId → Inference NodeId} {before after : InferenceState}
    (known : origin.arena.kind? node = some kind) (plain : kind.isNested = false)
    (statement : kind.isStatement = true) (ready : Ready limit origin node before)
    (ran : Ran (anyStatement environment check node) before now after) :
    Counted origin [node] before after := by
  have strays := Arena.strays_leaf constructed known plain statement
  by_cases isJump : origin.arena.IsJump node
  · rcases ran_bind.mp ran with ⟨_, _, got, jumped⟩
    cases got
    rw [show before.tree.arena.kind? node = _ from ready.kind] at jumped
    rcases id isJump with found | found
    all_goals
      rw [found] at jumped
      rcases ran_bind.mp jumped with ⟨_, _, jumped, rest⟩
      cases rest
      exact counted_jump (strays.mpr isJump) jumped
  · exact counted_of_quiet (fun stray => isJump (strays.mp stray))
      (quiet_frame.keeps_leaf known plain statement isJump ready ran)

theorem Walk.counted (constructed : origin.Constructed limit) {nodes found : List NodeId}
    {before after : InferenceState}
    (walk : Walk limit origin environment nodes before found after) :
    Counted origin nodes before after := by
  have asks : ∀ {condition before first},
      Ran (predicate environment condition) before ⟨⟩ first → Quiet before first :=
    fun ran => quiet_frame.keeps_predicate environment _ _ _ _ ran
  induction walk with
  | nil => exact .nil _
  | leaf check known plain admits ready ran taken _ ih =>
      exact (counted_leaf constructed known plain admits ready ran).cons ih
  | body known ready inside work _ inner ih =>
      refine Counted.cons ?_ ih
      exact .of_parts (Arena.strays_body known) ⟨inner.1, inner.2⟩
  | condition known ready asked askedWork thenWalk elseWalk work _ thenPart elsePart ih =>
      refine Counted.cons ?_ ih
      have strays := Arena.strays_condition constructed known
      exact .of_parts (by simpa using strays) ((thenPart.cons elsePart).after_quiet (asks asked))
  | @loop node _ _ _ _ before first second _ known ready asked askedWork inside work _ inner ih =>
      refine Counted.cons (counted_of_quiet (Arena.not_strays_loop known) ?_) ih
      have quiet := asks asked
      -- Inside the loop the count is positive, so nothing strays there.
      have same : Warned second ↔ Warned first := by
        rw [inner.2]
        simp [deeper, Warned]
      refine ⟨?_, same.trans quiet.2⟩
      have depth := inner.1
      simp only [shallower, deeper] at depth ⊢
      rw [depth, Nat.add_sub_cancel, quiet.1]

section Modules

variable {functions : List NodeId} {signed before after : InferenceState}

theorem Rounds.warned (constructed : origin.Constructed limit) {left : List NodeId}
    (rounds : Rounds limit origin environment functions signed left before after) :
    Warned after ↔ Warned before ∨ ∃ function ∈ left, origin.arena.Strays function := by
  induction rounds with
  | nil => simp
  | next known advanced entry noted ready walk work _ ih =>
      have counted := walk.counted constructed
      have entry := quiet_frame.keeps_forM quiet_frame.keeps_declare_parameter _ _ _ _ entry
      have depth := entry.1
      have warned := entry.2
      simp only [entered] at depth
      rw [ih, counted.2, depth, warned, List.exists_mem_cons_iff, List.exists_mem_cons_iff,
        Arena.strays_function constructed known]
      simp [Warned, entered, or_assoc]

/-- A jump is reported exactly if one strays in some function. -/
theorem Course.warned {fileName : String} {host : Host} {root : NodeId}
    {modules imports : List NodeId} {signatures : List Signature}
    (course : Course limit origin fileName host root modules imports functions signatures signed
      after) :
    Warned after ↔ ∃ function ∈ functions, origin.arena.Strays function := by
  have start : Quiet (.initial origin) signed :=
    quiet_frame.keeps_mapM (quiet_frame.keeps_signature _) _ _ _ _ course.ran
  rw [course.rounds.warned course.prepared.constructed, start.2]
  simp [Warned, InferenceState.initial]

end Modules

end Inference

end ModuleLang
