import Mathlib.Data.Set.Basic
import ModuleLang.Proofs.Repetition.Definition

/-!
Clashes of definitions, found on one way through the statements of a function. The way keeps
the names that are visible and those that were declared in bodies that are closed. A definition
clashes if its name is among them. It is shown that there is a clash exactly if two definitions
of the function conflict.
-/

namespace ModuleLang

/-- What the slots below a body are for. -/
def Category.isLocal : Category → Bool
  | body | statement => true
  | category => category.isInner

namespace Arena

section Notions

variable (arena : Arena)

/-- A statement opens a body if it is one, or holds one without being one. -/
inductive Opens : NodeId → NodeId → Prop
  | itself {body statements} (found : arena.kind? body = some (.body statements)) : Opens body body
  | held {statement body statements} (slot : body ∈ arena.children statement)
      (found : arena.kind? body = some (.body statements))
      (other : ∀ inner, arena.kind? statement ≠ some (.body inner)) : Opens statement body

/-- A statement defines a name where some names are visible. -/
def Introduces (seen : Set String) (name : String) (statement : NodeId) : Prop :=
  arena.TypedDefinition name statement ∨ (arena.PlainAssignment name statement ∧ name ∉ seen)

/-- Names that are visible behind a statement. -/
def names (statement : NodeId) : Set String := {name | arena.MayDefine name statement}

/-- Statements, or bodies inside them, define a name. -/
inductive Declares : Set String → List NodeId → String → Prop
  | own {seen statement rest name} (introduces : arena.Introduces seen name statement) :
      Declares seen (statement :: rest) name
  | inside {seen statement body statements rest name} (opens : arena.Opens statement body)
      (found : arena.kind? body = some (.body statements))
      (declares : Declares seen statements name) : Declares seen (statement :: rest) name
  | later {seen statement rest name}
      (declares : Declares (seen ∪ arena.names statement) rest name) :
      Declares seen (statement :: rest) name

/-- Names that the bodies of a statement define. -/
def within (seen : Set String) (statement : NodeId) : Set String :=
  {name | ∃ body, arena.Opens statement body ∧ ∃ statements,
    arena.kind? body = some (.body statements) ∧ arena.Declares seen statements name}

/-- A definition of a name that is visible, or was declared in a closed body inside the open one.
A body is entered with no closed bodies inside it. -/
inductive Clashes : Set String → Set String → List NodeId → Prop
  | own {seen closed statement rest name} (introduces : arena.Introduces seen name statement)
      (taken : name ∈ seen ∪ closed) : Clashes seen closed (statement :: rest)
  | inside {seen closed statement body statements rest} (opens : arena.Opens statement body)
      (found : arena.kind? body = some (.body statements)) (clashes : Clashes seen ∅ statements) :
      Clashes seen closed (statement :: rest)
  | later {seen closed statement rest}
      (clashes : Clashes (seen ∪ arena.names statement) (closed ∪ arena.within seen statement) rest) :
      Clashes seen closed (statement :: rest)

/-- Names that are visible behind statements. -/
def allNames (statements : List NodeId) : Set String :=
  {name | ∃ statement ∈ statements, arena.MayDefine name statement}

/-- Names that the bodies of statements define, one statement after the other. -/
def allWithin (seen : Set String) : List NodeId → Set String
  | [] => ∅
  | statement :: rest =>
      arena.within seen statement ∪ allWithin (seen ∪ arena.names statement) rest

end Notions

theorem Introduces.may_define {arena : Arena} {seen : Set String} {name : String}
    {statement : NodeId} (introduces : arena.Introduces seen name statement) :
    arena.MayDefine name statement :=
  introduces.imp id And.left

theorem Opens.body {arena : Arena} {statement body : NodeId} (opens : arena.Opens statement body) :
    ∃ statements, arena.kind? body = some (.body statements) := by
  cases opens with
  | itself found => exact ⟨_, found⟩
  | held _ found _ => exact ⟨_, found⟩

section Lists

variable {arena : Arena} {seen closed : Set String} {name : String} {statement : NodeId}
  {front rest : List NodeId}

theorem all_names_nil : arena.allNames [] = ∅ := by
  ext name
  simp [allNames]

theorem all_names_cons :
    arena.allNames (statement :: rest) = arena.names statement ∪ arena.allNames rest := by
  ext name
  simp [allNames, names]

theorem all_names_singleton : arena.allNames [statement] = arena.names statement := by
  rw [all_names_cons, all_names_nil, Set.union_empty]

theorem all_within_singleton : arena.allWithin seen [statement] = arena.within seen statement := by
  rw [allWithin, allWithin, Set.union_empty]

theorem declares_nil : {name | arena.Declares seen [] name} = ∅ := by
  ext name
  constructor
  · intro declares
    cases declares
  · exact False.elim

theorem declares_cons : arena.Declares seen (statement :: rest) name ↔
    arena.Introduces seen name statement ∨ name ∈ arena.within seen statement ∨
      arena.Declares (seen ∪ arena.names statement) rest name := by
  constructor
  · intro declares
    cases declares with
    | own introduces => exact .inl introduces
    | inside opens found declares => exact .inr (.inl ⟨_, opens, _, found, declares⟩)
    | later declares => exact .inr (.inr declares)
  · intro declares
    rcases declares with introduces | ⟨body, opens, statements, found, declares⟩ | declares
    · exact .own introduces
    · exact .inside opens found declares
    · exact .later declares

theorem declares_singleton : arena.Declares seen [statement] name ↔
    arena.Introduces seen name statement ∨ name ∈ arena.within seen statement := by
  rw [declares_cons]
  constructor
  · rintro (introduces | within | declares)
    · exact .inl introduces
    · exact .inr within
    · cases declares
  · rintro (introduces | within)
    · exact .inl introduces
    · exact .inr (.inl within)

theorem clashes_cons : arena.Clashes seen closed (statement :: rest) ↔
    arena.Clashes seen closed [statement] ∨
      arena.Clashes (seen ∪ arena.names statement) (closed ∪ arena.within seen statement) rest := by
  constructor
  · intro clashes
    cases clashes with
    | own introduces taken => exact .inl (.own introduces taken)
    | inside opens found clashes => exact .inl (.inside opens found clashes)
    | later clashes => exact .inr clashes
  · intro clashes
    rcases clashes with clashes | clashes
    · cases clashes with
      | own introduces taken => exact .own introduces taken
      | inside opens found clashes => exact .inside opens found clashes
      | later clashes => cases clashes
    · exact .later clashes

section Parts

variable {parts : List NodeId} (silent : ∀ part ∈ parts, ∀ name, ¬ arena.MayDefine name part)

include silent

/-- What statements do not define themselves is defined in their bodies. -/
theorem declares_parts : arena.Declares seen parts name ↔
    ∃ part ∈ parts, name ∈ arena.within seen part := by
  induction parts with
  | nil => exact iff_of_false nofun nofun
  | cons part rest ih =>
      rw [List.forall_mem_cons] at silent
      have none : arena.names part = ∅ := Set.eq_empty_of_forall_notMem silent.1
      rw [declares_cons, none, Set.union_empty, ih silent.2, List.exists_mem_cons_iff]
      constructor
      · rintro (introduces | found)
        · exact absurd introduces.may_define (silent.1 name)
        · exact found
      · exact .inr

theorem within_parts : name ∈ arena.allWithin seen parts ↔
    ∃ part ∈ parts, name ∈ arena.within seen part := by
  induction parts with
  | nil => exact iff_of_false nofun nofun
  | cons part rest ih =>
      rw [List.forall_mem_cons] at silent
      have none : arena.names part = ∅ := Set.eq_empty_of_forall_notMem silent.1
      rw [allWithin, none, Set.union_empty, List.exists_mem_cons_iff, ← ih silent.2]
      rfl

theorem clashes_parts : arena.Clashes seen closed parts ↔ ∃ part ∈ parts, ∃ body,
    arena.Opens part body ∧ ∃ statements, arena.kind? body = some (.body statements) ∧
      arena.Clashes seen ∅ statements := by
  induction parts generalizing closed with
  | nil => exact iff_of_false nofun nofun
  | cons part rest ih =>
      rw [List.forall_mem_cons] at silent
      have none : arena.names part = ∅ := Set.eq_empty_of_forall_notMem silent.1
      rw [clashes_cons, none, Set.union_empty, ih silent.2, List.exists_mem_cons_iff]
      apply or_congr_left
      constructor
      · intro clashes
        cases clashes with
        | own introduces _ => exact absurd introduces.may_define (silent.1 _)
        | inside opens found clashes => exact ⟨_, opens, _, found, clashes⟩
        | later clashes => cases clashes
      · rintro ⟨body, opens, statements, found, clashes⟩
        exact .inside opens found clashes

end Parts

theorem declares_behind (declares : arena.Declares (seen ∪ arena.allNames front) rest name) :
    arena.Declares seen (front ++ rest) name := by
  induction front generalizing seen with
  | nil =>
      rw [all_names_nil, Set.union_empty] at declares
      exact declares
  | cons statement front ih =>
      rw [all_names_cons, ← Set.union_assoc] at declares
      exact .later (ih declares)

theorem clashes_behind (clashes : arena.Clashes (seen ∪ arena.allNames front)
    (closed ∪ arena.allWithin seen front) rest) : arena.Clashes seen closed (front ++ rest) := by
  induction front generalizing seen closed with
  | nil =>
      rw [all_names_nil, allWithin, Set.union_empty, Set.union_empty] at clashes
      exact clashes
  | cons statement front ih =>
      rw [all_names_cons, allWithin, ← Set.union_assoc, ← Set.union_assoc] at clashes
      exact .later (ih clashes)

theorem within_behind (within : name ∈ arena.within (seen ∪ arena.allNames front) statement) :
    name ∈ arena.allWithin seen (front ++ statement :: rest) := by
  induction front generalizing seen with
  | nil =>
      rw [all_names_nil, Set.union_empty] at within
      exact .inl within
  | cons first front ih =>
      rw [all_names_cons, ← Set.union_assoc] at within
      exact .inr (ih within)

end Lists

section Bodies

variable {limit : Position} {tree : SourceTree} (constructed : tree.Constructed limit)
  {function outer inner body statement node : NodeId} {name : String}

include constructed

/-- Below a body stand statements and expressions, but no function. -/
theorem local_below (found : ∃ statements, tree.arena.kind? body = some (.body statements))
    (below : tree.arena.Reachable body node) :
    ∃ category : Category, category.isLocal = true ∧ tree.arena.Admitted category node := by
  induction below with
  | refl =>
      rcases found with ⟨statements, found⟩
      exact ⟨.body, rfl, _, found, rfl⟩
  | tail _ inside ih =>
      rcases ih with ⟨category, near, kind, known, admits⟩
      rw [children_of_kind known] at inside
      rcases NodeKind.child_has_slot inside with ⟨held, slot⟩
      refine ⟨held, ?_, constructed.admitted known _ slot⟩
      have inner_local : ∀ {other : Category}, other.isInner = true → other.isLocal = true := by
        intro other inner
        cases other with
        | type | target | place | expression => rfl
        | _ => cases inner
      cases outer : kind.isOuter with
      | false => exact inner_local (NodeKind.inner_of_not_outer outer _ slot)
      | true =>
          cases kind with
          | body statements =>
              rcases List.mem_map.mp slot with ⟨_, _, same⟩
              cases same
              rfl
          | condition predicate thenBody elseBody =>
              simp only [NodeKind.slots, List.mem_cons, List.mem_map] at slot
              rcases slot with same | same | ⟨_, _, same⟩ <;> cases same <;> rfl
          | loop predicate block =>
              simp only [NodeKind.slots, List.mem_cons, List.not_mem_nil, or_false] at slot
              rcases slot with same | same <;> cases same <;> rfl
          | root | function =>
              cases category with
              | moduleDef | useDef | function | parameter => cases near
              | _ => cases admits
          | _ => cases outer

/-- No body stands below an expression, a type or a target. -/
theorem no_body_inner {category : Category} {statements : List NodeId}
    (inner : category.isInner = true) (admitted : tree.arena.Admitted category node)
    (below : tree.arena.Reachable node body) :
    tree.arena.kind? body ≠ some (.body statements) := by
  intro found
  rcases inner_below constructed inner admitted below with ⟨held, inside, kind, known, admits⟩
  cases found.symm.trans known
  cases NodeKind.not_outer_of_inner inside admits

/-- A child that is a body stands in a slot of its parent for a body or a statement. -/
theorem outer_of_body {kind : NodeKind NodeId} {statements : List NodeId}
    (known : tree.arena.kind? node = some kind) (slot : body ∈ kind.children)
    (found : tree.arena.kind? body = some (.body statements)) : kind.isOuter = true := by
  cases outer : kind.isOuter with
  | true => rfl
  | false =>
      rcases NodeKind.child_has_slot slot with ⟨category, held⟩
      exact absurd found (no_body_inner constructed (NodeKind.inner_of_not_outer outer _ held)
        (constructed.admitted known _ held) .refl)

/-- A statement that may define a name holds no bodies. -/
theorem no_body_defining {statements : List NodeId}
    (defines : tree.arena.MayDefine name statement)
    (below : tree.arena.Reachable statement body) :
    tree.arena.kind? body ≠ some (.body statements) := by
  have leaf : ∃ kind, tree.arena.kind? statement = some kind ∧ kind.isOuter = false := by
    rcases defines with typed | plain
    · cases typed with
      | bare found => exact ⟨_, found, rfl⟩
      | assigned found _ => exact ⟨_, found, rfl⟩
    · cases plain with
      | intro found _ => exact ⟨_, found, rfl⟩
  rcases leaf with ⟨kind, known, outer⟩
  intro found
  rcases reachable_cases below with same | ⟨child, slot, reaches⟩
  · subst same
    cases found.symm.trans known
    cases outer
  · rw [children_of_kind known] at slot
    rcases NodeKind.child_has_slot slot with ⟨category, held⟩
    exact no_body_inner constructed (NodeKind.inner_of_not_outer outer _ held)
      (constructed.admitted known _ held) reaches found

omit constructed in
/-- Only bodies have slots for statements. -/
theorem body_of_statement_slot {kind : NodeKind NodeId}
    (slot : (Category.statement, statement) ∈ kind.slots) :
    ∃ statements, kind = .body statements ∧ statement ∈ statements := by
  cases kind with
  | body statements =>
      rcases List.mem_map.mp slot with ⟨_, member, same⟩
      cases same
      exact ⟨statements, rfl, member⟩
  | assign operator target value =>
      cases operator <;> simp [NodeKind.slots, AssignOperator.side] at slot
  | _ => simp [NodeKind.slots] at slot

/-- A condition or a loop below a body stands in a body. -/
theorem body_of_nested {statements : List NodeId} {kind : NodeKind NodeId}
    (known : tree.arena.kind? outer = some (.body statements))
    (below : tree.arena.Reachable outer node) (found : tree.arena.kind? node = some kind)
    (nested : kind.isNested = true) (other : ∀ held, kind ≠ .body held) :
    ∃ middle held, tree.arena.Reachable outer middle ∧
      tree.arena.kind? middle = some (.body held) ∧ node ∈ held := by
  rcases Relation.ReflTransGen.cases_tail below with same | ⟨parent, above, last⟩
  · subst same
    exact absurd (Option.some.inj (found.symm.trans known)) (other _)
  · rcases kind_of_child last with ⟨upper, held, member⟩
    rcases NodeKind.child_has_slot member with ⟨category, slot⟩
    rcases constructed.admitted held _ slot with ⟨again, same, admits⟩
    cases found.symm.trans same
    cases category with
    | statement =>
        rcases body_of_statement_slot slot with ⟨all, rfl, inside⟩
        exact ⟨parent, all, above, held, inside⟩
    | body =>
        cases kind with
        | body held => exact absurd rfl (other held)
        | _ => cases admits
    | _ =>
        cases kind with
        | body held => exact absurd rfl (other held)
        | condition | loop => cases admits
        | _ => cases nested

omit constructed in
/-- A statement that holds others defines nothing itself. -/
theorem not_defines_of_nested {kind : NodeKind NodeId}
    (known : tree.arena.kind? node = some kind) (nested : kind.isNested = true) :
    ∀ name, ¬ tree.arena.MayDefine name node := by
  rintro name ((again | ⟨again, _⟩) | ⟨again, _⟩)
  all_goals
    cases known.symm.trans again
    cases nested

/-- A node opens the bodies in its slots for these. -/
theorem opens_iff_parts {kind : NodeKind NodeId} {parts : List NodeId}
    (known : tree.arena.kind? node = some kind) (other : ∀ held, kind ≠ .body held)
    (held : ∀ part ∈ parts, (Category.body, part) ∈ kind.slots)
    (rest : ∀ slot ∈ kind.slots, slot.2 ∈ parts ∨ slot.1.isInner = true) :
    tree.arena.Opens node body ↔ ∃ part ∈ parts, tree.arena.Opens part body := by
  constructor
  · intro opens
    cases opens with
    | itself found => exact absurd (Option.some.inj (known.symm.trans found)) (other _)
    | held slot found _ =>
        rw [children_of_kind known] at slot
        rcases NodeKind.child_has_slot slot with ⟨category, place⟩
        rcases rest _ place with member | inner
        · exact ⟨body, member, .itself found⟩
        · exact absurd found
            (no_body_inner constructed inner (constructed.admitted known _ place) .refl)
  · rintro ⟨part, member, opens⟩
    have slot := held part member
    rcases constructed.admitted known _ slot with ⟨partKind, found, admits⟩
    cases partKind with
    | body statements =>
        cases opens with
        | itself =>
            apply Opens.held (child_of_kind known (NodeKind.slot_is_child slot)) found
            intro all same
            exact other all (Option.some.inj (known.symm.trans same))
        | held _ _ apart => exact absurd found (apart _)
    | _ => cases admits

/-- A statement that holds no others opens nothing. -/
theorem not_opens_of_leaf {kind : NodeKind NodeId} (known : tree.arena.kind? node = some kind)
    (plain : kind.isNested = false) (admits : kind.isStatement = true) :
    ¬ tree.arena.Opens node body := by
  intro opens
  cases opens with
  | itself found =>
      cases known.symm.trans found
      cases plain
  | held slot found _ =>
      rw [children_of_kind known] at slot
      cases (outer_of_body constructed known slot found).symm.trans
        (NodeKind.not_outer_of_leaf plain admits)

/-- A body that stands below another one is opened by a statement of a body in between. -/
theorem body_inside {statements others : List NodeId}
    (known : tree.arena.kind? outer = some (.body statements))
    (found : tree.arena.kind? inner = some (.body others))
    (below : tree.arena.Reachable outer inner) :
    inner = outer ∨ ∃ middle held statement, tree.arena.Reachable outer middle ∧
      tree.arena.kind? middle = some (.body held) ∧ statement ∈ held ∧
      tree.arena.Opens statement inner := by
  rcases Relation.ReflTransGen.cases_tail below with same | ⟨parent, above, last⟩
  · exact .inl same
  · right
    rcases local_below constructed ⟨_, known⟩ above with ⟨category, near, kind, held, admits⟩
    have slot : inner ∈ kind.children := by
      rw [← children_of_kind held]
      exact last
    have wide := outer_of_body constructed held slot found
    have opens : (∀ all, kind ≠ .body all) → tree.arena.Opens parent inner := by
      intro other
      apply Opens.held last found
      intro all same
      exact other all (Option.some.inj (held.symm.trans same))
    have step : kind.isNested = true → (∀ all, kind ≠ .body all) →
        ∃ middle all statement, tree.arena.Reachable outer middle ∧
          tree.arena.kind? middle = some (.body all) ∧ statement ∈ all ∧
          tree.arena.Opens statement inner := by
      intro nested other
      rcases body_of_nested constructed known above held nested other with
        ⟨middle, all, reaches, isBody, member⟩
      exact ⟨middle, all, parent, reaches, isBody, member, opens other⟩
    cases kind with
    | body all => exact ⟨parent, all, inner, above, held, slot, .itself found⟩
    | condition | loop => exact step rfl nofun
    | root | function =>
        cases category with
        | moduleDef | useDef | function | parameter => cases near
        | _ => cases admits
    | _ => cases wide

/-- What holds of a body holds of the ones around it, if it passes from a body that a statement
opens to the body of that statement. -/
theorem lift_bodies {property : NodeId → Prop}
    (step : ∀ {outer inner statement statements}, tree.arena.Reachable function outer →
      tree.arena.kind? outer = some (.body statements) → statement ∈ statements →
      tree.arena.Opens statement inner → property inner → property outer)
    {statements others : List NodeId} (inside : tree.arena.Reachable function outer)
    (known : tree.arena.kind? outer = some (.body statements))
    (found : tree.arena.kind? inner = some (.body others))
    (below : tree.arena.Reachable outer inner) (holds : property inner) : property outer := by
  induction gap : outer.index - inner.index using Nat.strongRecOn generalizing inner others with
  | ind gap ih =>
      rcases body_inside constructed known found below with same | further
      · exact same ▸ holds
      · rcases further with ⟨middle, held, statement, above, isBody, member, opens⟩
        have upper := constructed.forest.index_le above
        have lower : inner.index < middle.index := by
          have slot := constructed.forest.below (child_of_kind isBody member)
          cases opens with
          | itself => exact slot
          | held under => exact Nat.lt_trans (constructed.forest.below under) slot
        apply ih _ _ isBody above _ rfl
        · omega
        · exact step (inside.trans above) isBody member opens holds

/-- A body that stands below a statement is opened by it, or stands inside such a body. -/
theorem opens_of_reachable {statements others : List NodeId}
    (known : tree.arena.kind? outer = some (.body statements)) (member : statement ∈ statements)
    (found : tree.arena.kind? body = some (.body others))
    (below : tree.arena.Reachable statement body) :
    ∃ middle held, tree.arena.Opens statement middle ∧
      tree.arena.kind? middle = some (.body held) ∧ tree.arena.Reachable middle body := by
  have slot : (Category.statement, statement) ∈ (NodeKind.body statements).slots :=
    List.mem_map_of_mem member
  rcases constructed.admitted known _ slot with ⟨kind, held, admits⟩
  by_cases isBody : ∃ all, kind = .body all
  · rcases isBody with ⟨all, rfl⟩
    exact ⟨statement, all, .itself held, held, below⟩
  · rcases reachable_cases below with same | ⟨child, inside, reaches⟩
    · subst same
      cases held.symm.trans found
      exact absurd ⟨_, rfl⟩ isBody
    · have other : ∀ all, tree.arena.kind? statement ≠ some (.body all) := by
        intro all same
        exact isBody ⟨all, Option.some.inj (held.symm.trans same)⟩
      have slot : child ∈ kind.children := by
        rw [← children_of_kind held]
        exact inside
      rcases NodeKind.child_has_slot slot with ⟨category, place⟩
      have admitted := constructed.admitted held _ place
      cases category with
      | body =>
          rcases admitted with ⟨childKind, isChild, admits⟩
          cases childKind with
          | body all => exact ⟨child, all, .held inside isChild other, isChild, reaches⟩
          | _ => cases admits
      | statement =>
          rcases body_of_statement_slot place with ⟨all, same, -⟩
          exact absurd ⟨all, same⟩ isBody
      | type | target | place | expression =>
          exact absurd found (no_body_inner constructed rfl admitted reaches)
      | _ =>
          cases kind with
          | root | function => cases admits
          | assign operator =>
              cases operator <;> simp [NodeKind.slots, AssignOperator.side] at place
          | _ => simp [NodeKind.slots] at place

end Bodies

/-- The names that are known at a node. -/
def knownNames (arena : Arena) (function node : NodeId) : Set String :=
  {name | arena.Known function name node}

section Conflicts

variable {limit : Position} {tree : SourceTree} (constructed : tree.Constructed limit)
  {function outer inner body statement node : NodeId} {name : String} {seen closed : Set String}
  {front back statements : List NodeId}

include constructed

theorem known_names_opened (opens : tree.arena.Opens statement body) :
    tree.arena.knownNames function body = tree.arena.knownNames function statement := by
  cases opens with
  | itself => rfl
  | held slot _ other =>
      ext name
      exact known_child constructed.forest slot other

theorem known_names_statement (inside : tree.arena.Reachable function body)
    (found : tree.arena.kind? body = some (.body (front ++ statement :: back))) :
    tree.arena.knownNames function statement =
      tree.arena.knownNames function body ∪ tree.arena.allNames front := by
  ext name
  exact known_statement constructed.forest inside found

theorem defines_of_introduces (inside : tree.arena.Reachable function body)
    (found : tree.arena.kind? body = some (.body (front ++ statement :: back)))
    (introduces : tree.arena.Introduces
      (tree.arena.knownNames function body ∪ tree.arena.allNames front) name statement) :
    tree.arena.Defines function name statement (some body) := by
  have stands : tree.arena.StandsIn body statement :=
    ⟨_, found, List.mem_append_right front List.mem_cons_self⟩
  rcases introduces with typed | ⟨plain, unknown⟩
  · exact .typed inside stands typed
  · rw [← known_names_statement constructed inside found] at unknown
    exact .plain inside stands plain unknown

theorem introduces_of_defines (inside : tree.arena.Reachable function body)
    (found : tree.arena.kind? body = some (.body (front ++ statement :: back)))
    (defines : tree.arena.Defines function name statement (some body)) :
    tree.arena.Introduces
      (tree.arena.knownNames function body ∪ tree.arena.allNames front) name statement := by
  rw [← known_names_statement constructed inside found]
  cases defines with
  | typed _ _ typed => exact .inl typed
  | plain _ _ plain unknown => exact .inr ⟨plain, unknown⟩

omit constructed in
/-- The next statement is passed, and what it may define is known behind it. -/
theorem pass_statement
    (found : tree.arena.kind? body = some (.body (front ++ statement :: back)))
    (same : seen = tree.arena.knownNames function body ∪ tree.arena.allNames front) :
    tree.arena.kind? body = some (.body (front ++ [statement] ++ back)) ∧
      seen ∪ tree.arena.names statement =
        tree.arena.knownNames function body ∪ tree.arena.allNames (front ++ [statement]) := by
  constructor
  · rw [List.append_assoc, List.singleton_append]
    exact found
  · have last : tree.arena.allNames (front ++ [statement]) =
        tree.arena.allNames front ∪ tree.arena.names statement := by
      ext name
      simp [allNames, names, or_and_right, exists_or]
    rw [same, last, Set.union_assoc]

/-- A body that the next statement opens is entered with the names that are known there. -/
theorem enter_body (inside : tree.arena.Reachable function body)
    (found : tree.arena.kind? body = some (.body (front ++ statement :: back)))
    (same : seen = tree.arena.knownNames function body ∪ tree.arena.allNames front)
    (opens : tree.arena.Opens statement inner) :
    tree.arena.Reachable statement inner ∧ tree.arena.Reachable body inner ∧
      seen = tree.arena.knownNames function inner ∪ tree.arena.allNames [] := by
  have slot : statement ∈ tree.arena.children body :=
    child_of_kind found (List.mem_append_right front List.mem_cons_self)
  have below : tree.arena.Reachable statement inner := by
    cases opens with
    | itself => exact .refl
    | held under => exact .of_child under
  refine ⟨below, .below_child slot below, ?_⟩
  rw [same, known_names_opened constructed opens, known_names_statement constructed inside found,
    all_names_nil, Set.union_empty]

/-- What is declared on the way is defined in the body or inside it. -/
theorem defined_of_declares (declares : tree.arena.Declares seen statements name)
    (inside : tree.arena.Reachable function body)
    (found : tree.arena.kind? body = some (.body (front ++ statements)))
    (same : seen = tree.arena.knownNames function body ∪ tree.arena.allNames front) :
    ∃ definition place, tree.arena.Defines function name definition (some place) ∧
      tree.arena.Reachable body place := by
  induction declares generalizing body front with
  | own introduces =>
      subst same
      exact ⟨_, body, defines_of_introduces constructed inside found introduces, .refl⟩
  | @inside _ _ opened held _ _ opens known _ ih =>
      rcases enter_body constructed inside found same opens with ⟨-, below, entered⟩
      have whole : tree.arena.kind? opened = some (.body ([] ++ held)) := known
      rcases ih (inside.trans below) whole entered with ⟨definition, place, defines, reaches⟩
      exact ⟨definition, place, defines, below.trans reaches⟩
  | later _ ih =>
      rcases pass_statement found same with ⟨passed, names⟩
      exact ih inside passed names

/-- A definition that stands before another one holds there. -/
theorem encloses_of_foregoes {definition : NodeId} {place : Option NodeId}
    (found : tree.arena.kind? body = some (.body (front ++ statement :: back)))
    (defines : tree.arena.Defines function name definition place)
    (foregoes : tree.arena.Foregoes function definition statement) :
    Encloses tree.arena place (some body) := by
  cases place with
  | none => trivial
  | some outer =>
      have slot := child_of_stands defines.statement.2.1
      rcases foregoes_statement constructed.forest found foregoes with ahead | further
      · have own : definition ∈ tree.arena.children body :=
          child_of_kind found (List.mem_append_left _ ahead)
        cases constructed.forest.single slot own
        exact .refl
      · rcases further with ⟨other, _, next, _, -, known, before, below⟩
        have own : definition ∈ tree.arena.children other :=
          child_of_kind known (List.mem_append_left _ before)
        cases constructed.forest.single slot own
        exact .below_child (child_of_kind known (List.mem_append_right _ List.mem_cons_self)) below

omit constructed in
/-- A parameter is no statement. -/
theorem parameter_apart {parameter : NodeId} {place : NodeId} {other : String}
    (has : tree.arena.HasParameter function name parameter)
    (defines : tree.arena.Defines function other statement (some place)) : parameter ≠ statement := by
  rintro rfl
  rcases has with ⟨_, _, _, _, _, -, -, isParameter⟩
  rcases defines.statement.2.2 with typed | plain
  · cases typed with
    | bare found => cases isParameter.symm.trans found
    | assigned found _ => cases isParameter.symm.trans found
  · cases plain with
    | intro found _ => cases isParameter.symm.trans found

/-- A name that is known where it is defined was defined before. -/
theorem conflicts_of_known
    (found : tree.arena.kind? body = some (.body (front ++ statement :: back)))
    (defines : tree.arena.Defines function name statement (some body))
    (known : tree.arena.Known function name statement) : tree.arena.Conflicts function := by
  rcases (known_iff_defined constructed.forest).mp known with ⟨definition, place, other, holds⟩
  refine ⟨name, definition, statement, place, some body, ?_, other, defines, nofun, ?_⟩
  · rcases holds with rfl | foregoes
    · cases other with
      | parameter has => exact parameter_apart has defines
    · rintro rfl
      exact foregoes_irrefl constructed.forest foregoes
  · rcases holds with rfl | foregoes
    · trivial
    · exact encloses_of_foregoes constructed found other foregoes

/-- A clash on the way is a conflict, if what was declared in closed bodies is defined in bodies
of the statements before. -/
theorem conflicts_of_clashes (clashes : tree.arena.Clashes seen closed statements)
    (inside : tree.arena.Reachable function body)
    (found : tree.arena.kind? body = some (.body (front ++ statements)))
    (same : seen = tree.arena.knownNames function body ∪ tree.arena.allNames front)
    (defined : ∀ name ∈ closed, ∃ definition place,
      tree.arena.Defines function name definition (some place) ∧
        ∃ earlier ∈ front, tree.arena.Reachable earlier place) :
    tree.arena.Conflicts function := by
  induction clashes generalizing body front with
  | @own seen closed statement rest name introduces taken =>
      subst same
      have defines := defines_of_introduces constructed inside found introduces
      rcases taken with known | isClosed
      · rw [← known_names_statement constructed inside found] at known
        exact conflicts_of_known constructed found defines known
      · rcases defined name isClosed with ⟨definition, place, other, earlier, member, below⟩
        have slot : earlier ∈ tree.arena.children body :=
          child_of_kind found (List.mem_append_left _ member)
        refine ⟨name, statement, definition, some body, some place, ?_, defines, other, nofun,
          .below_child slot below⟩
        rintro rfl
        -- It would stand in the open body and in a closed one.
        have own : statement ∈ tree.arena.children body :=
          child_of_kind found (List.mem_append_right front List.mem_cons_self)
        cases constructed.forest.single own (child_of_stands other.statement.2.1)
        exact constructed.forest.parent_not_below slot below
  | @inside _ _ _ opened held _ opens known _ ih =>
      rcases enter_body constructed inside found same opens with ⟨-, below, entered⟩
      have whole : tree.arena.kind? opened = some (.body ([] ++ held)) := known
      exact ih (inside.trans below) whole entered nofun
  | @later seen closed statement rest clashes ih =>
      rcases pass_statement found same with ⟨passed, names⟩
      apply ih inside passed names
      intro name member
      rcases member with isClosed | ⟨opened, opens, held, known, declares⟩
      · rcases defined name isClosed with ⟨definition, place, defines, earlier, member, below⟩
        exact ⟨definition, place, defines, earlier, List.mem_append_left _ member, below⟩
      · rcases enter_body constructed inside found same opens with ⟨under, below, entered⟩
        have whole : tree.arena.kind? opened = some (.body ([] ++ held)) := known
        rcases defined_of_declares constructed declares (inside.trans below) whole entered with
          ⟨definition, place, defines, reaches⟩
        exact ⟨definition, place, defines, statement,
          List.mem_append_right front List.mem_cons_self, under.trans reaches⟩

/-- The statements of a body clash when they are entered with the names that are known. -/
def BodyClashes (tree : SourceTree) (function body : NodeId) : Prop :=
  ∀ statements, tree.arena.kind? body = some (.body statements) →
    tree.arena.Clashes (tree.arena.knownNames function body) ∅ statements

/-- The statements of a body declare a name when they are entered so. -/
def BodyDeclares (tree : SourceTree) (function : NodeId) (name : String) (body : NodeId) : Prop :=
  ∀ statements, tree.arena.kind? body = some (.body statements) →
    tree.arena.Declares (tree.arena.knownNames function body) statements name

theorem body_clashes_outside {others : List NodeId} (inside : tree.arena.Reachable function outer)
    (known : tree.arena.kind? outer = some (.body statements))
    (found : tree.arena.kind? inner = some (.body others))
    (below : tree.arena.Reachable outer inner) (clashes : BodyClashes tree function inner) :
    BodyClashes tree function outer := by
  apply lift_bodies constructed _ inside known found below clashes
  intro outer inner statement statements inside known member opens clashes held again
  cases known.symm.trans again
  rcases List.append_of_mem member with ⟨front, back, rfl⟩
  rcases enter_body constructed inside known rfl opens with ⟨-, -, entered⟩
  rw [all_names_nil, Set.union_empty] at entered
  apply clashes_behind
  rw [entered]
  rcases opens.body with ⟨held, isBody⟩
  exact .inside opens isBody (clashes held isBody)

theorem body_declares_outside {others : List NodeId} (inside : tree.arena.Reachable function outer)
    (known : tree.arena.kind? outer = some (.body statements))
    (found : tree.arena.kind? inner = some (.body others))
    (below : tree.arena.Reachable outer inner) (declares : BodyDeclares tree function name inner) :
    BodyDeclares tree function name outer := by
  apply lift_bodies constructed _ inside known found below declares
  intro outer inner statement statements inside known member opens declares held again
  cases known.symm.trans again
  rcases List.append_of_mem member with ⟨front, back, rfl⟩
  rcases enter_body constructed inside known rfl opens with ⟨-, -, entered⟩
  rw [all_names_nil, Set.union_empty] at entered
  apply declares_behind
  rw [entered]
  rcases opens.body with ⟨held, isBody⟩
  exact .inside opens isBody (declares held isBody)

/-- A definition of a known name clashes. -/
theorem body_clashes_of_known (defines : tree.arena.Defines function name statement (some body))
    (known : tree.arena.Known function name statement) : BodyClashes tree function body := by
  intro statements found
  rcases id defines.statement with ⟨inside, ⟨held, isBody, member⟩, -⟩
  cases found.symm.trans isBody
  rcases List.append_of_mem member with ⟨front, back, rfl⟩
  apply clashes_behind
  apply Clashes.own (introduces_of_defines constructed inside found defines)
  left
  rw [← known_names_statement constructed inside found]
  exact known

/-- A definition declares its name in its body. -/
theorem body_declares_of_defines
    (defines : tree.arena.Defines function name statement (some body)) :
    BodyDeclares tree function name body := by
  intro statements found
  rcases id defines.statement with ⟨inside, ⟨held, isBody, member⟩, -⟩
  cases found.symm.trans isBody
  rcases List.append_of_mem member with ⟨front, back, rfl⟩
  apply declares_behind
  exact .own (introduces_of_defines constructed inside found defines)

/-- Of two definitions in one body the second one clashes. -/
theorem body_clashes_of_pair {first second : NodeId}
    (defines : tree.arena.Defines function name first (some body))
    (also : tree.arena.Defines function name second (some body)) (apart : first ≠ second) :
    BodyClashes tree function body := by
  have ordered : ∀ {one other front back}, tree.arena.Defines function name one (some body) →
      tree.arena.Defines function name other (some body) →
      tree.arena.kind? body = some (.body (front ++ other :: back)) → one ∈ front →
      BodyClashes tree function body := by
    intro one other front back defines also found member
    apply body_clashes_of_known constructed also
    exact (known_statement constructed.forest also.statement.1 found).mpr
      (.inr ⟨one, member, defines.statement.2.2⟩)
  rcases id defines.statement with ⟨-, ⟨statements, found, member⟩, -⟩
  rcases id also.statement with ⟨-, ⟨_, again, there⟩, -⟩
  cases found.symm.trans again
  rcases List.append_of_mem there with ⟨front, back, rfl⟩
  rcases List.mem_append.mp member with ahead | behind
  · exact ordered defines also found ahead
  · rcases List.mem_cons.mp behind with same | behind
    · exact absurd same apart
    · rcases List.append_of_mem behind with ⟨gap, rest, rfl⟩
      have split : front ++ second :: (gap ++ first :: rest) =
          (front ++ second :: gap) ++ first :: rest := by simp
      exact ordered also defines (split ▸ found) (List.mem_append_right _ List.mem_cons_self)

/-- A definition in a body inside another one clashes with a definition in that, or the other
way round, if that comes later. -/
theorem body_clashes_of_nested {first second : NodeId} {statements others : List NodeId}
    (defines : tree.arena.Defines function name first (some outer))
    (also : tree.arena.Defines function name second (some inner))
    (known : tree.arena.kind? outer = some (.body statements))
    (found : tree.arena.kind? inner = some (.body others))
    (below : tree.arena.Reachable outer inner) (differ : inner ≠ outer) :
    BodyClashes tree function outer := by
  rcases id defines.statement with ⟨inside, ⟨_, again, member⟩, may⟩
  cases known.symm.trans again
  rcases reachable_cases below with same | ⟨next, slot, reaches⟩
  · exact absurd same differ
  · rw [children_of_kind known] at slot
    have ends : tree.arena.Reachable next second := reaches.tail (child_of_stands also.statement.2.1)
    rcases List.append_of_mem (show next ∈ statements from slot) with ⟨front, back, rfl⟩
    rcases List.mem_append.mp member with ahead | behind
    · -- The definition of the outer body is known in the inner one.
      apply body_clashes_outside constructed inside known found below
      apply body_clashes_of_known constructed also
      exact .inr ⟨first, may, outer, front, next, back, inside, known, ahead, ends⟩
    · rcases List.mem_cons.mp behind with same | behind
      · subst same
        exact absurd found (no_body_defining constructed may reaches)
      · -- The inner body is closed before the definition of the outer one.
        rcases List.append_of_mem behind with ⟨gap, rest, rfl⟩
        rcases opens_of_reachable constructed known slot found reaches with
          ⟨middle, held, opens, isBody, onwards⟩
        rcases enter_body constructed inside known rfl opens with ⟨-, above, entered⟩
        rw [all_names_nil, Set.union_empty] at entered
        have declares := body_declares_outside constructed (inside.trans above) isBody found onwards
          (body_declares_of_defines constructed also)
        have split : front ++ next :: (gap ++ first :: rest) =
            (front ++ next :: gap) ++ first :: rest := by simp
        intro all same
        cases known.symm.trans same
        rw [split] at known ⊢
        apply clashes_behind
        apply Clashes.own (introduces_of_defines constructed inside known defines)
        right
        right
        apply within_behind
        rw [entered]
        exact ⟨middle, opens, held, isBody, declares held isBody⟩

/-- Bodies stand in a function only below its block. -/
theorem below_block {result : Option NodeId} {own : String} {parameters : List NodeId}
    {block : NodeId}
    (isFunction : tree.arena.kind? function = some (.function result own parameters block))
    (below : tree.arena.Reachable function body)
    (found : tree.arena.kind? body = some (.body statements)) :
    tree.arena.Reachable block body := by
  rcases reachable_cases below with same | ⟨child, slot, reaches⟩
  · subst same
    cases isFunction.symm.trans found
  · rw [children_of_kind isFunction] at slot
    rcases NodeKind.child_has_slot slot with ⟨category, held⟩
    have admitted := constructed.admitted isFunction _ held
    simp only [NodeKind.slots, List.mem_append, List.mem_map, List.mem_singleton] at held
    rcases held with (⟨_, _, same⟩ | ⟨_, _, same⟩) | same
    · cases same
      exact absurd found (no_body_inner constructed (show Category.type.isInner = true from rfl)
        admitted reaches)
    · cases same
      rcases admitted with ⟨kind, known, admits⟩
      cases kind with
      | parameter written name =>
          rcases reachable_cases reaches with same | ⟨other, slot, reaches⟩
          · subst same
            cases known.symm.trans found
          · rw [children_of_kind known] at slot
            cases List.mem_singleton.mp slot
            have admitted := constructed.admitted known (.type, written) (by simp [NodeKind.slots])
            exact absurd found (no_body_inner constructed
              (show Category.type.isInner = true from rfl) admitted reaches)
      | _ => cases admits
    · cases same
      exact reaches

/-- A conflict between definitions of a function is a clash in its block. -/
theorem clashes_of_conflicts {result : Option NodeId} {own : String} {parameters : List NodeId}
    {block : NodeId}
    (isFunction : tree.arena.kind? function = some (.function result own parameters block))
    (found : tree.arena.kind? block = some (.body statements))
    (conflicts : tree.arena.Conflicts function) : BodyClashes tree function block := by
  rcases conflicts with ⟨name, first, second, outer, inner, apart, defines, also, mixed, holds⟩
  have slot : block ∈ tree.arena.children function :=
    child_of_kind isFunction (List.mem_append_right _ List.mem_cons_self)
  have outside : ∀ {body}, tree.arena.Reachable function body →
      (∃ held, tree.arena.kind? body = some (.body held)) → BodyClashes tree function body →
      BodyClashes tree function block := by
    intro body below isBody clashes
    rcases isBody with ⟨held, isBody⟩
    exact body_clashes_outside constructed (.of_child slot) found isBody
      (below_block constructed isFunction below isBody) clashes
  cases inner with
  | none =>
      cases outer with
      | none => exact absurd ⟨rfl, rfl⟩ mixed
      | some outer => cases holds
  | some inner =>
      rcases id also.statement with ⟨inside, ⟨others, isInner, member⟩, -⟩
      cases outer with
      | none =>
          cases defines with
          | parameter has =>
              exact outside inside ⟨others, isInner⟩
                (body_clashes_of_known constructed also (.inl ⟨first, has⟩))
      | some outer =>
          rcases id defines.statement with ⟨around, ⟨held, isOuter, -⟩, -⟩
          apply outside around ⟨held, isOuter⟩
          by_cases same : inner = outer
          · subst same
            exact body_clashes_of_pair constructed defines also apart
          · exact body_clashes_of_nested constructed defines also isOuter isInner holds same

/-- The statements of a function clash, entered with its parameters, exactly if definitions of
the function conflict. -/
theorem clashes_iff_conflicts {result : Option NodeId} {own : String} {parameters : List NodeId}
    {block : NodeId}
    (isFunction : tree.arena.kind? function = some (.function result own parameters block)) :
    tree.arena.Clashes {name | ∃ parameter, tree.arena.HasParameter function name parameter} ∅
      [block] ↔ tree.arena.Conflicts function := by
  have slot : block ∈ tree.arena.children function :=
    child_of_kind isFunction (List.mem_append_right _ List.mem_cons_self)
  rcases constructed.admitted isFunction (.body, block) (by simp [NodeKind.slots]) with
    ⟨kind, found, admits⟩
  cases kind with
  | body statements =>
      have known : tree.arena.knownNames function block =
          {name | ∃ parameter, tree.arena.HasParameter function name parameter} := by
        ext name
        have other : ∀ all, tree.arena.kind? function ≠ some (.body all) := by
          intro all same
          cases isFunction.symm.trans same
        exact (known_child constructed.forest slot other).trans (known_function constructed.forest)
      rw [← known]
      constructor
      · intro clashes
        cases clashes with
        | own introduces _ =>
            exact absurd found (no_body_defining constructed introduces.may_define .refl)
        | later clashes => cases clashes
        | inside opens isBody clashes =>
            cases opens with
            | itself =>
                have whole : tree.arena.kind? block = some (.body ([] ++ _)) := isBody
                apply conflicts_of_clashes constructed clashes (.of_child slot) whole
                · rw [all_names_nil, Set.union_empty]
                · exact fun _ none => absurd none (Set.notMem_empty _)
            | held _ _ other => exact absurd found (other _)
      · intro conflicts
        exact .inside (.itself found) found
          (clashes_of_conflicts constructed isFunction found conflicts statements found)
  | _ => cases admits

end Conflicts

end Arena

end ModuleLang
