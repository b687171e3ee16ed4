import ModuleLang.Proofs.Tree.Preorder
import ModuleLang.Proofs.Validation.Outline

/-!
Statements that are never reached. The check for returns reports, once for every body,
the statements behind its first jump, with the smallest span that covers them. A path
through a function goes on behind a statement only if it came to the end of it, which
it does for no jump; so whatever it goes into lies outside of the reported spans.
-/

namespace ModuleLang

theorem Position.lt_irrefl (position : Position) : ¬ position < position :=
  fun order => order.2 order.1

namespace Arena

/-- A path from a node on goes into another one: it comes to the end of the statements
before it in every body, takes the branch of every condition that leads there, and
runs through every loop any number of times before. -/
inductive Enters (arena : Arena) : NodeId → NodeId → Prop
  | here {node} : Enters arena node node
  | statement {node earlier statement later target}
      (found : arena.kind? node = some (.body (earlier ++ statement :: later)))
      (each : ∀ passed ∈ earlier, arena.Runs passed .finished)
      (inside : Enters arena statement target) : Enters arena node target
  | thenBody {node predicate thenBody elseBody target}
      (found : arena.kind? node = some (.condition predicate thenBody elseBody))
      (inside : Enters arena thenBody target) : Enters arena node target
  | elseBody {node predicate thenBody elseBody target}
      (found : arena.kind? node = some (.condition predicate thenBody (some elseBody)))
      (inside : Enters arena elseBody target) : Enters arena node target
  | loop {node predicate block target}
      (found : arena.kind? node = some (.loop predicate block))
      (inside : Enters arena block target) : Enters arena node target
  | loopAgain {node predicate block once target}
      (found : arena.kind? node = some (.loop predicate block)) (first : arena.Runs block once)
      (goes : once = .finished ∨ once = .continued) (rest : Enters arena node target) :
      Enters arena node target

variable {arena : Arena} {root node target body jump dead : NodeId}
  {earlier later : List NodeId}

theorem Enters.comprised (enters : arena.Enters node target) : arena.Comprises node target := by
  have into : ∀ {node child target : NodeId} {kind : NodeKind NodeId},
      arena.kind? node = some kind → child ∈ kind.outline → arena.Comprises child target →
      arena.Comprises node target := by
    intro node child target kind found part below
    refine Relation.ReflTransGen.head ?_ below
    rw [outline_of_kind found]
    exact part
  induction enters with
  | here => exact .refl
  | statement found _ _ ih => exact into found (by simp [NodeKind.outline]) ih
  | thenBody found _ ih => exact into found (by simp [NodeKind.outline]) ih
  | elseBody found _ ih => exact into found (by simp [NodeKind.outline]) ih
  | loop found _ ih => exact into found (by simp [NodeKind.outline]) ih
  | loopAgain _ _ _ _ ih => exact ih

theorem not_finished_jump (jumps : arena.isJump jump = true) : ¬ arena.Runs jump .finished := by
  have kinds : (∃ value, arena.kind? jump = some (.returnFrom value)) ∨ arena.IsJump jump := by
    unfold isJump at jumps
    split at jumps
    · exact Or.inl ⟨_, ‹_›⟩
    · exact Or.inr (Or.inl ‹_›)
    · exact Or.inr (Or.inr ‹_›)
    · cases jumps
  obtain ⟨value, found⟩ | found | found := kinds
  · exact not_finished_return found
  all_goals
    intro runs
    cases runs with
    | left _ _ _ leaves => exact leaves rfl
    | plain other simple =>
        cases found.symm.trans other
        cases simple
    | _ other => cases found.symm.trans other

/-- What stands before a statement behind a jump includes the jump. -/
theorem jump_before {first second : List NodeId} {statement : NodeId}
    (same : first ++ statement :: second = earlier ++ jump :: later)
    (distinct : (earlier ++ jump :: later).Nodup) (behind : statement ∈ later) : jump ∈ first := by
  have fresh := List.nodup_append.mp distinct
  rcases List.append_eq_append_iff.mp same with ⟨more, rfl, rest⟩ | ⟨more, rfl, rest⟩
  · cases more with
    | nil =>
        cases rest
        exact absurd behind (List.nodup_cons.mp fresh.2.1).1
    | cons other more =>
        cases rest
        exact absurd rfl (fresh.2.2 statement (by simp) statement (List.mem_cons_of_mem _ behind))
  · cases more with
    | nil =>
        cases rest
        exact absurd behind (List.nodup_cons.mp fresh.2.1).1
    | cons other more =>
        cases rest
        simp

section Tree

variable (tree : arena.IsTree root)

include tree

/-- A node above the target lies below the part that leads there, or is the whole. -/
theorem IsTree.below_part {part : NodeId} (above : arena.Reachable root node)
    (slot : part ∈ arena.children node) (leads : arena.Reachable part target)
    (inside : arena.Reachable node body) (other : body ≠ node)
    (reaches : arena.Reachable body target) : arena.Reachable part body := by
  obtain same | ⟨next, nextSlot, nextBelow⟩ := reachable_cases inside
  · exact absurd same other
  · have equal := tree.siblings_disjoint above slot nextSlot leads (nextBelow.trans reaches)
    exact equal ▸ nextBelow

/-- No path goes into what stands behind a jump. -/
theorem IsTree.not_entered (above : arena.Reachable root node) (enters : arena.Enters node target)
    (found : arena.kind? body = some (.body (earlier ++ jump :: later)))
    (jumps : arena.isJump jump = true) (inside : arena.Reachable node body) (member : dead ∈ later)
    (below : arena.Reachable dead target) : False := by
  have slot : dead ∈ arena.children body :=
    child_of_kind found (by simp [NodeKind.children, member])
  have reaches : arena.Reachable body target := .below_child slot below
  -- Only in the body itself the way may leave the nodes above it.
  have down : ∀ {node part : NodeId} {kind : NodeKind NodeId}, arena.Reachable root node →
      arena.kind? node = some kind → (∀ statements, kind ≠ .body statements) →
      part ∈ kind.children → arena.Reachable part target → arena.Reachable node body →
      arena.Reachable root part ∧ arena.Reachable part body := by
    intro node part kind above known other held leads inside
    have slot := child_of_kind known held
    refine ⟨above.tail slot, tree.below_part above slot leads inside ?_ reaches⟩
    rintro rfl
    cases found.symm.trans known
    exact other _ rfl
  induction enters with
  | here => exact tree.acyclic _ _ (above.trans inside) slot (below.trans inside)
  | @statement node first statement second target known each enters ih =>
      have part : statement ∈ arena.children node := child_of_kind known (by simp [NodeKind.children])
      have leads := enters.comprised.reachable
      by_cases same : body = node
      · subst same
        have rows := NodeKind.body.inj (Option.some.inj (known.symm.trans found))
        have equal := tree.siblings_disjoint above part slot leads below
        have distinct : (earlier ++ jump :: later).Nodup := by
          have all := tree.distinct body above
          rw [children_of_kind found] at all
          exact all
        exact not_finished_jump jumps (each jump (jump_before rows distinct (equal ▸ member)))
      · exact ih (above.tail part) (tree.below_part above part leads inside same reaches) below
          reaches down
  | thenBody known enters ih =>
      obtain ⟨reached, inner⟩ := down above known (fun _ equal => by cases equal)
        (by simp [NodeKind.children]) enters.comprised.reachable inside
      exact ih reached inner below reaches down
  | elseBody known enters ih =>
      obtain ⟨reached, inner⟩ := down above known (fun _ equal => by cases equal)
        (by simp [NodeKind.children]) enters.comprised.reachable inside
      exact ih reached inner below reaches down
  | loop known enters ih =>
      obtain ⟨reached, inner⟩ := down above known (fun _ equal => by cases equal)
        (by simp [NodeKind.children]) enters.comprised.reachable inside
      exact ih reached inner below reaches down
  | loopAgain _ _ _ _ ih => exact ih above inside below reaches down

end Tree

section Cutting

/-- What a body holds behind its first jump. -/
def CutsOff (arena : Arena) (body : NodeId) (dead : List NodeId) : Prop :=
  ∃ earlier jump, arena.kind? body = some (.body (earlier ++ jump :: dead)) ∧
    (∀ statement ∈ earlier, arena.isJump statement = false) ∧ arena.isJump jump = true

/-- In a body a statement comes right behind a jump. -/
def Stops (arena : Arena) (body : NodeId) : Prop :=
  ∃ earlier jump next later, arena.kind? body = some (.body (earlier ++ jump :: next :: later)) ∧
    arena.isJump jump = true

theorem unreachable_of_kind {statements : List NodeId}
    (found : arena.kind? body = some (.body statements)) :
    arena.unreachable body =
      (statements.dropWhile fun statement => !arena.isJump statement).drop 1 := by
  rw [unreachable, found]

theorem body_of_unreachable (some' : arena.unreachable body ≠ []) :
    ∃ statements, arena.kind? body = some (.body statements) := by
  unfold unreachable at some'
  split at some'
  · exact ⟨_, ‹_›⟩
  · exact absurd rfl some'

theorem cuts_off_unreachable (some' : arena.unreachable body ≠ []) :
    arena.CutsOff body (arena.unreachable body) := by
  obtain ⟨statements, found⟩ := body_of_unreachable some'
  rw [unreachable_of_kind found] at *
  have whole := List.takeWhile_append_dropWhile (p := fun statement => !arena.isJump statement)
    (l := statements)
  have stopped := List.head?_dropWhile_not (fun statement => !arena.isJump statement) statements
  cases rest : statements.dropWhile fun statement => !arena.isJump statement with
  | nil => simp [rest] at some'
  | cons jump dead =>
      rw [rest] at whole stopped
      refine ⟨statements.takeWhile fun statement => !arena.isJump statement, jump, ?_,
        fun statement member => ?_, by simpa using stopped⟩
      · rw [found, List.drop_one, List.tail_cons, whole]
      · simpa using List.all_eq_true.mp List.all_takeWhile statement member

theorem drop_while_of_stop {stops : NodeId → Bool} {next : NodeId} (stopped : stops jump = true) :
    ((earlier ++ jump :: next :: later).dropWhile fun statement => !stops statement).drop 1 ≠ [] := by
  induction earlier with
  | nil => simp [stopped]
  | cons first earlier ih =>
      rw [List.cons_append, List.dropWhile_cons]
      split
      · exact ih
      · simp

theorem stops_iff : arena.Stops body ↔ arena.unreachable body ≠ [] := by
  constructor
  · rintro ⟨earlier, jump, next, later, found, jumps⟩
    rw [unreachable_of_kind found]
    exact drop_while_of_stop jumps
  · intro some'
    obtain ⟨earlier, jump, found, -, jumps⟩ := cuts_off_unreachable some'
    obtain ⟨next, later, same⟩ := List.exists_cons_of_ne_nil some'
    exact ⟨earlier, jump, next, later, by rw [found, same], jumps⟩

/-- The bodies of a function that cut off some of their statements. -/
def cutting (arena : Arena) (function : NodeId) : List NodeId :=
  (arena.blocks function).flatMap fun block =>
    (arena.descendants block).filter fun body => !(arena.unreachable body).isEmpty

end Cutting

end Arena

namespace SourceTree

variable {tree : SourceTree} {fileName : String} {root : NodeId}

/-- A diagnostic that reports what one body cuts off. -/
structure ReportsCut (tree : SourceTree) (fileName : String) (body : NodeId) (found : Diagnostic) :
    Prop where
  kind : found.kind = .unreachableCode
  file : found.fileName = fileName
  place : ∃ dead, dead ≠ [] ∧ tree.arena.CutsOff body dead ∧ tree.spans.Smallest dead found.span

/-- The reports are those about the bodies that cut something off, one for each. No
statement that a path through a function goes into lies in one of their spans. -/
structure ReportsCuts (tree : SourceTree) (fileName : String) (root : NodeId)
    (reports : List Diagnostic) : Prop where
  exact : ∃ bodies : List NodeId, bodies.Nodup ∧
    (∀ body, body ∈ bodies ↔ tree.arena.Reachable root body ∧ tree.arena.Stops body) ∧
    List.Forall₂ (tree.ReportsCut fileName) bodies reports
  avoided : ∀ found ∈ reports, ∀ modules imports functions,
    tree.arena.kind? root = some (.root modules imports functions) →
    ∀ function ∈ functions, ∀ block ∈ tree.arena.blocks function,
    ∀ body statements, tree.arena.Reachable root body →
    tree.arena.kind? body = some (.body statements) → ∀ statement ∈ statements,
    tree.arena.Enters block statement → ∀ span, tree.spans.span? statement = some span →
    ¬ found.span.Covers span

namespace Outlined

variable {root : NodeId} {modules imports functions : List NodeId} {tree : SourceTree}
  (outlined : tree.Outlined root)

include outlined

theorem mem_descendants {block id : NodeId} (above : tree.arena.Reachable root block) :
    id ∈ tree.arena.descendants block ↔ tree.arena.Reachable block id :=
  (outlined.hierarchy.holds_tree.below above).mem_descendants

theorem nodup_descendants {block : NodeId} (above : tree.arena.Reachable root block) :
    (tree.arena.descendants block).Nodup :=
  (outlined.hierarchy.holds_tree.below above).nodup_descendants

theorem mem_cutting {function body : NodeId} (above : tree.arena.Reachable root function) :
    body ∈ tree.arena.cutting function ↔ ∃ block ∈ tree.arena.blocks function,
      tree.arena.Reachable block body ∧ tree.arena.Stops body := by
  simp only [Arena.cutting, List.mem_flatMap, List.mem_filter, Arena.stops_iff]
  refine exists_congr fun block => and_congr_right fun slot => ?_
  rw [outlined.mem_descendants (above.tail (Arena.block_is_child slot))]
  simp

theorem nodup_cutting {function : NodeId} (above : tree.arena.Reachable root function) :
    (tree.arena.cutting function).Nodup := by
  unfold Arena.cutting
  cases known : tree.arena.kind? function with
  | none => simp [Arena.blocks, known]
  | some kind =>
      cases kind with
      | function result name parameters block =>
          have slot : block ∈ tree.arena.blocks function := by simp [Arena.blocks, known]
          rw [Arena.blocks, known]
          simpa using (outlined.nodup_descendants (above.tail (Arena.block_is_child slot))).filter _
      | _ => simp [Arena.blocks, known]

omit outlined in
theorem function_slot (isRoot : tree.arena.kind? root = some (.root modules imports functions))
    {function : NodeId} (member : function ∈ functions) : function ∈ tree.arena.children root :=
  Arena.child_of_kind isRoot (by simp [NodeKind.children, member])

omit outlined in
theorem reached_block (isRoot : tree.arena.kind? root = some (.root modules imports functions))
    {function block : NodeId} (member : function ∈ functions)
    (isBlock : block ∈ tree.arena.blocks function) : tree.arena.Reachable root block :=
  .below_child (function_slot isRoot member) (.of_child (Arena.block_is_child isBlock))

theorem nodup_cuttings (isRoot : tree.arena.kind? root = some (.root modules imports functions)) :
    (functions.flatMap tree.arena.cutting).Nodup := by
  have slots : ∀ function ∈ functions, function ∈ tree.arena.children root :=
    fun _ => function_slot isRoot
  have whole := outlined.hierarchy.is_tree
  have distinct : functions.Nodup := by
    have all := whole.distinct root .refl
    rw [Arena.children_of_kind isRoot] at all
    exact (List.nodup_append.mp all).2.1
  refine List.nodup_flatMap.mpr ⟨fun function member =>
    outlined.nodup_cutting (.of_child (slots function member)), ?_⟩
  refine distinct.imp_of_mem fun {first second} left right apart body inFirst inSecond => apart ?_
  rw [outlined.mem_cutting (.of_child (slots _ left))] at inFirst
  rw [outlined.mem_cutting (.of_child (slots _ right))] at inSecond
  obtain ⟨_, slot, below, -⟩ := inFirst
  obtain ⟨_, slot', below', -⟩ := inSecond
  exact whole.siblings_disjoint .refl (slots _ left) (slots _ right)
    (.below_child (Arena.block_is_child slot) below)
    (.below_child (Arena.block_is_child slot') below')

/-- What a body cuts off lies between the end of the jump and that of the body. -/
theorem span_of_cut {body jump : NodeId} {earlier dead : List NodeId} {span left outer : Span}
    (above : tree.arena.Reachable root body)
    (found : tree.arena.kind? body = some (.body (earlier ++ jump :: dead)))
    (smallest : tree.spans.Smallest dead span) (place : tree.spans.span? jump = some left)
    (whole : tree.spans.span? body = some outer) :
    left.stop ≤ span.start ∧ span.stop ≤ outer.stop := by
  have ordered := outlined.ordered above
  rw [Arena.outline_of_kind found] at ordered
  have later := (List.pairwise_cons.mp (List.pairwise_append.mp ordered).2.1).1
  have inside : ∀ {node place}, node ∈ jump :: dead → tree.spans.span? node = some place →
      place.stop ≤ outer.stop := by
    intro node place member known
    have slot : node ∈ tree.arena.children body :=
      Arena.child_of_kind found (List.mem_append_right _ member)
    exact (outlined.hierarchy.within above (.of_child slot) place outer known whole).2
  refine smallest.least ⟨left.stop, outer.stop, inside List.mem_cons_self place⟩ ?_
  intro node member known placed
  exact ⟨later node member left known place placed, inside (List.mem_cons_of_mem _ member) placed⟩

/-- A statement that lies in the span of what a body cuts off lies below one of these
statements. -/
theorem dead_of_covered {body jump other statement : NodeId}
    {earlier dead statements : List NodeId} {span place : Span}
    (above : tree.arena.Reachable root body)
    (found : tree.arena.kind? body = some (.body (earlier ++ jump :: dead)))
    (smallest : tree.spans.Smallest dead span) (held : tree.arena.Reachable root other)
    (isBody : tree.arena.kind? other = some (.body statements)) (member : statement ∈ statements)
    (known : tree.spans.span? statement = some place) (covers : span.Covers place) :
    ∃ last ∈ dead, tree.arena.Reachable last statement := by
  obtain ⟨begins, ends⟩ := covers
  have hierarchy := outlined.hierarchy
  have slot : ∀ {node}, node ∈ earlier ++ jump :: dead → node ∈ tree.arena.children body :=
    fun member => Arena.child_of_kind found member
  have jumpSlot : jump ∈ tree.arena.children body := slot (by simp)
  obtain ⟨left, jumpPlace⟩ := hierarchy.spanned (above.tail jumpSlot)
  obtain ⟨outer, whole⟩ := hierarchy.spanned above
  obtain ⟨lower, upper⟩ := outlined.span_of_cut above found smallest jumpPlace whole
  have jumpFilled := outlined.filled above found jump (by simp) left jumpPlace
  have filled := outlined.filled held isBody statement member place known
  have jumpInside := hierarchy.within above (.of_child jumpSlot) left outer jumpPlace whole
  -- Whatever begins before the jump ends does not lie behind it.
  have early : ¬ place.start < left.stop := fun order =>
    Position.lt_irrefl _ (Position.lt_of_lt_of_le order (Position.le_trans lower begins))
  have reached : tree.arena.Comprises root statement := by
    refine (outlined.comprises held isBody rfl).tail ?_
    rw [Arena.outline_of_kind isBody]
    exact member
  obtain around | inside | before | behind :=
    outlined.apart .refl reached (outlined.comprises above found rfl)
  · have start := (hierarchy.within reached.reachable
      ((Arena.Comprises.reachable around).tail jumpSlot) left place jumpPlace known).1
    exact absurd (Position.lt_of_le_of_lt start jumpFilled) early
  · obtain rfl | ⟨part, isPart, below⟩ := Relation.ReflTransGen.cases_head inside
    · have start := (hierarchy.within above (.of_child jumpSlot) left place jumpPlace known).1
      exact absurd (Position.lt_of_le_of_lt start jumpFilled) early
    · rw [Arena.outline_of_kind found] at isPart
      have reaches := Arena.Comprises.reachable below
      obtain first | rest := List.mem_append.mp isPart
      · have ordered := outlined.ordered above
        rw [Arena.outline_of_kind found] at ordered
        have order := (List.pairwise_append.mp ordered).2.2 part first jump List.mem_cons_self
        have stop := hierarchy.before_below order (above.tail (slot isPart)) (above.tail jumpSlot)
          reaches .refl place left known jumpPlace
        exact absurd
          (Position.lt_of_lt_of_le filled (Position.le_trans stop left.ordered)) early
      · obtain rfl | last := List.mem_cons.mp rest
        · have stop := (hierarchy.within (above.tail jumpSlot) reaches place left known jumpPlace).2
          exact absurd (Position.lt_of_lt_of_le filled stop) early
        · exact ⟨part, last, reaches⟩
  · have stop := before place outer known whole
    exact absurd (Position.lt_of_lt_of_le filled (Position.le_trans stop
      (Position.le_trans jumpInside.1 left.ordered))) early
  · have start := behind outer place whole known
    exact absurd (Position.lt_of_le_of_lt (Position.le_trans (Position.le_trans ends upper) start)
      filled) (Position.lt_irrefl _)

section Functions

variable (isRoot : tree.arena.kind? root = some (.root modules imports functions))
  (kinds : ∀ function ∈ functions, ∃ result name parameters block,
    tree.arena.kind? function = some (.function result name parameters block))

include isRoot kinds

/-- Every body stands in the body of a function. -/
theorem block_above {body : NodeId} {statements : List NodeId} (above : tree.arena.Reachable root body)
    (isBody : tree.arena.kind? body = some (.body statements)) :
    ∃ function ∈ functions, ∃ block ∈ tree.arena.blocks function,
      tree.arena.Reachable block body := by
  obtain rfl | ⟨function, part, rest⟩ :=
    Relation.ReflTransGen.cases_head (outlined.comprises above isBody rfl)
  · cases isRoot.symm.trans isBody
  · rw [Arena.outline_of_kind isRoot] at part
    obtain ⟨result, name, parameters, block, isFunction⟩ := kinds function part
    obtain rfl | ⟨other, slot, below⟩ := Relation.ReflTransGen.cases_head rest
    · cases isFunction.symm.trans isBody
    · rw [Arena.outline_of_kind isFunction] at slot
      refine ⟨function, part, other, ?_, Arena.Comprises.reachable below⟩
      rw [Arena.blocks, isFunction]
      exact slot

/-- A body and the body of a function stand in each other if something stands in both. -/
theorem same_block {function block body id : NodeId} {statements : List NodeId}
    (above : tree.arena.Reachable root body)
    (isBody : tree.arena.kind? body = some (.body statements)) (member : function ∈ functions)
    (isBlock : block ∈ tree.arena.blocks function) (first : tree.arena.Reachable body id)
    (second : tree.arena.Reachable block id) : tree.arena.Reachable block body := by
  obtain ⟨other, otherMember, around, isAround, below⟩ :=
    outlined.block_above isRoot kinds above isBody
  have same := outlined.hierarchy.is_tree.siblings_disjoint .refl (function_slot isRoot otherMember)
    (function_slot isRoot member) (.below_child (Arena.block_is_child isAround) (below.trans first))
    (.below_child (Arena.block_is_child isBlock) second)
  subst same
  obtain ⟨result, name, parameters, own, isFunction⟩ := kinds other member
  rw [Arena.blocks, isFunction] at isBlock isAround
  rw [List.mem_singleton.mp isBlock, ← List.mem_singleton.mp isAround]
  exact below

/-- The bodies that stop are those that the functions are listed with. -/
theorem stops_below (body : NodeId) :
    body ∈ functions.flatMap tree.arena.cutting ↔
      tree.arena.Reachable root body ∧ tree.arena.Stops body := by
  have reached : ∀ function ∈ functions, tree.arena.Reachable root function :=
    fun function member => .of_child (function_slot isRoot member)
  rw [List.mem_flatMap]
  constructor
  · rintro ⟨function, member, inside⟩
    obtain ⟨block, slot, below, stops⟩ := (outlined.mem_cutting (reached function member)).mp inside
    exact ⟨(reached_block isRoot member slot).trans below, stops⟩
  · rintro ⟨above, stops⟩
    obtain ⟨earlier, jump, next, later, isBody, -⟩ := id stops
    obtain ⟨function, member, block, slot, below⟩ := outlined.block_above isRoot kinds above isBody
    exact ⟨function, member,
      (outlined.mem_cutting (reached function member)).mpr ⟨block, slot, below, stops⟩⟩

/-- What a path goes into lies in no span of what a body cuts off. -/
theorem not_covered {function block body other statement : NodeId}
    {statements dead : List NodeId} {span place : Span} (above : tree.arena.Reachable root body)
    (cuts : tree.arena.CutsOff body dead) (smallest : tree.spans.Smallest dead span)
    (isFunction : function ∈ functions) (isBlock : block ∈ tree.arena.blocks function)
    (held : tree.arena.Reachable root other)
    (isBody : tree.arena.kind? other = some (.body statements)) (member : statement ∈ statements)
    (enters : tree.arena.Enters block statement)
    (known : tree.spans.span? statement = some place) : ¬ span.Covers place := by
  intro covers
  obtain ⟨earlier, jump, found, -, jumps⟩ := cuts
  obtain ⟨last, isDead, reaches⟩ :=
    outlined.dead_of_covered above found smallest held isBody member known covers
  have slot : last ∈ tree.arena.children body :=
    Arena.child_of_kind found (by simp [NodeKind.children, isDead])
  have start := reached_block isRoot isFunction isBlock
  refine outlined.hierarchy.is_tree.not_entered start enters found jumps ?_ isDead reaches
  exact outlined.same_block isRoot kinds above found isFunction isBlock
    (.below_child slot reaches) enters.comprised.reachable

end Functions

end Outlined

end SourceTree

namespace ModuleRoot

variable {limit : Position} {host : Host} {clean : Prop} {module : ModuleRoot}
  {modules imports functions : List NodeId} {tree : SourceTree}

theorem reported_of_cuts {bodies : List NodeId} {cuts : List (List Diagnostic)}
    (all : List.Forall₂ (Cuts module tree) bodies cuts) :
    List.Forall₂ (tree.ReportsCut module.fileName)
      (bodies.filter fun body => !(tree.arena.unreachable body).isEmpty) cuts.flatten := by
  induction all with
  | nil => exact .nil
  | cons cut _ ih =>
      cases cut with
      | nothing none => simpa [none] using ih
      | behind some' smallest =>
          rw [List.filter_cons_of_pos (by simpa using some'), List.flatten_cons]
          exact .cons ⟨rfl, rfl, _, some', Arena.cuts_off_unreachable some', smallest⟩ ih

/-- The reports about unreachable statements of one function are those about its bodies. -/
theorem Inspects.reported {function : NodeId} {reports : List Diagnostic}
    (inspects : Inspects module tree function reports) :
    List.Forall₂ (tree.ReportsCut module.fileName) (tree.arena.cutting function)
      (reports.filter (·.code = "SEM1024")) := by
  obtain ⟨result, name, parameters, block, missing, cuts, found, rfl, -, own, all⟩ :=
    inspects.parts
  have none : missing.filter (·.code = "SEM1024") = [] := by
    rw [List.filter_eq_nil_iff]
    intro one member
    simp [Diagnostic.code, (own one member).1, DiagnosticKind.code]
  have every : cuts.flatten.filter (·.code = "SEM1024") = cuts.flatten := by
    rw [List.filter_eq_self]
    intro one member
    simp [Diagnostic.code, (kind_of_cuts all one member).1, DiagnosticKind.code]
  rw [List.filter_append, none, every, Arena.cutting, Arena.blocks, found]
  simpa using reported_of_cuts all

theorem reported_of_inspects {parts : List (List Diagnostic)}
    (all : List.Forall₂ (Inspects module tree) functions parts) :
    List.Forall₂ (tree.ReportsCut module.fileName) (functions.flatMap tree.arena.cutting)
      (parts.flatten.filter (·.code = "SEM1024")) := by
  induction all with
  | nil => exact .nil
  | cons inspects _ ih =>
      rw [List.flatMap_cons, List.flatten_cons, List.filter_append]
      exact List.rel_append inspects.reported ih

/-- What the check finds is what the outline of the tree says. -/
theorem reports_cuts (outlined : tree.Outlined module.node)
    (isRoot : tree.arena.kind? module.node = some (.root modules imports functions))
    (kinds : ∀ function ∈ functions, ∃ result name parameters block,
      tree.arena.kind? function = some (.function result name parameters block))
    {parts : List (List Diagnostic)}
    (all : List.Forall₂ (Inspects module tree) functions parts) :
    tree.ReportsCuts module.fileName module.node
      (parts.flatten.filter (·.code = "SEM1024")) where
  exact := ⟨_, outlined.nodup_cuttings isRoot, outlined.stops_below isRoot kinds,
    reported_of_inspects all⟩
  avoided := by
    intro found reported modules imports others again function isFunction block isBlock body
      statements held isBody statement member enters span known
    cases isRoot.symm.trans again
    obtain ⟨cut, inside, report⟩ := partner_of_member (reported_of_inspects all) reported
    obtain ⟨above, -⟩ := (outlined.stops_below isRoot kinds cut).mp inside
    obtain ⟨dead, -, cuts, smallest⟩ := report.place
    exact outlined.not_covered isRoot kinds above cuts smallest isFunction isBlock held isBody member
      enters known

end ModuleRoot

namespace CheckedModule

/-- In every module, as parsed and with the types, the check for returns reports each
body in which a statement comes right behind a jump, once and with the smallest span
that covers what stands behind the first one. No path through a function goes into a
statement in there. -/
theorem of_text_unreachable (text fileName : String) (host : Host) :
    ∃ parsed checked reports inferred early late,
      ParsedModule.ofText text fileName = .ok parsed ∧
      ofText text fileName host = .ok checked ∧
      (SourceTree.inferTypes parsed.fileName host parsed.root).run parsed.tree =
        .ok reports inferred ∧
      (Validator.mustReturn.run ⟨parsed.root, parsed.fileName⟩).run parsed.tree =
        .ok early parsed.tree ∧
      (Validator.mustReturn.run ⟨parsed.root, parsed.fileName⟩).run inferred = .ok late inferred ∧
      (∀ found ∈ late, found ∈ checked.diagnostics) ∧
      parsed.tree.ReportsCuts parsed.fileName parsed.root (early.filter (·.code = "SEM1024")) ∧
      inferred.ReportsCuts parsed.fileName parsed.root (late.filter (·.code = "SEM1024")) := by
  obtain ⟨parsed, wasParsed, proper, -⟩ := ParsedModule.of_text_proper text fileName
  obtain ⟨modules, imports, functions, root⟩ := proper.root
  have rows := proper.rows root
  obtain ⟨reported, final, ran, signatures, signed, inferred, late, parts, course, first, second,
    inside, split, inspects, -⟩ := yields_iff.mp (yields_stages proper host root)
  have before := proper.constructed.woven host root
  have after := Inference.woven_of_inferred proper.constructed root course.inferred
  let module : ModuleRoot := ⟨parsed.root, parsed.fileName⟩
  obtain ⟨early, _, third, rfl, others, rfl, earlier⟩ :=
    yields_iff.mp (ModuleRoot.yields_returns (show parsed.tree.Woven _ host False module.node _ _ _
      from before))
  refine ⟨parsed, ⟨final, parsed.root, parsed.diagnostics ++ reported, parsed.fileName⟩,
    inferred.diagnostics, inferred.tree, _, late, wasParsed, ?_, first, third, second,
    fun one member => ?_, ?_, ?_⟩
  · unfold ofText
    rw [wasParsed]
    change ofParsed parsed host = _
    unfold ofParsed
    rw [ran]
  · exact List.mem_append_right _ (inside one (List.mem_append_right _ member))
  · refine ModuleRoot.reports_cuts (proper.constructed.outlined root rows) root ?_ earlier
    intro function member
    obtain ⟨result, name, parameters, block, known, -⟩ := before.functionKinds function member
    exact ⟨result, name, parameters, block, known⟩
  · rw [split]
    refine ModuleRoot.reports_cuts (course.outlined rows) after.found ?_ inspects
    intro function member
    obtain ⟨result, name, parameters, block, known, -⟩ := after.functionKinds function member
    exact ⟨result, name, parameters, block, known⟩

end CheckedModule

end ModuleLang
