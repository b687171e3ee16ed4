import Mathlib.Data.Fintype.EquivFin
import Mathlib.Order.WellFounded
import ModuleLang.Proofs.Typing.Binding

/-!
Definitions of names in the parsed tree. A parameter defines its name around all bodies of a
function, a statement with a written type defines one in its own body, and so does a plain
assignment where the name is not known yet. A name is known behind every statement that may
define it, in the same body and in the bodies inside. It is shown that a definition of it
stands there then: what is known is what was defined.
-/

namespace ModuleLang.Arena

section Notions

variable (arena : Arena)

def StandsIn (body statement : NodeId) : Prop :=
  ∃ statements, arena.kind? body = some (.body statements) ∧ statement ∈ statements

/-- A statement of a function stands before a node, in the same body or in one around it. -/
def Foregoes (function earlier later : NodeId) : Prop :=
  ∃ body front next back, arena.Reachable function body ∧
    arena.kind? body = some (.body (front ++ next :: back)) ∧ earlier ∈ front ∧
    arena.Reachable next later

/-- A statement that defines a name, unless it is an assignment to a known one. -/
def MayDefine (name : String) (statement : NodeId) : Prop :=
  arena.TypedDefinition name statement ∨ arena.PlainAssignment name statement

/-- Where a name may be defined: at a parameter, at a variable with a written type, or at the
target of a plain assignment. -/
inductive MayDefineAt (name : String) (place : NodeId) : Prop
  | parameter {written} (found : arena.kind? place = some (.parameter written name))
  | typed {written} (found : arena.kind? place = some (.definition (some written) name))
  | plain {statement value} (found : arena.kind? statement = some (.assign .assign place value))
      (named : arena.kind? place = some (.member name))

def HasParameter (function : NodeId) (name : String) (parameter : NodeId) : Prop :=
  ∃ result own parameters block written,
    arena.kind? function = some (.function result own parameters block) ∧
    parameter ∈ parameters ∧ arena.kind? parameter = some (.parameter written name)

/-- A name of a function is known at a node. -/
def Known (function : NodeId) (name : String) (node : NodeId) : Prop :=
  (∃ parameter, arena.HasParameter function name parameter) ∨
    ∃ earlier, arena.MayDefine name earlier ∧ arena.Foregoes function earlier node

/-- The definitions of a name in a function, each with the body that it stands in. A parameter
stands in none, as it is defined around all of them. -/
inductive Defines (function : NodeId) (name : String) : NodeId → Option NodeId → Prop
  | parameter {parameter} (has : arena.HasParameter function name parameter) :
      Defines function name parameter none
  | typed {body statement} (inside : arena.Reachable function body)
      (stands : arena.StandsIn body statement) (typed : arena.TypedDefinition name statement) :
      Defines function name statement (some body)
  | plain {body statement} (inside : arena.Reachable function body)
      (stands : arena.StandsIn body statement) (plain : arena.PlainAssignment name statement)
      (unknown : ¬ arena.Known function name statement) :
      Defines function name statement (some body)

/-- A definition in the first place holds in the second one. -/
def Encloses : Option NodeId → Option NodeId → Prop
  | none, _ => True
  | some outer, some inner => arena.Reachable outer inner
  | some _, none => False

/-- Two definitions of one name, not both of them parameters, of which one holds where the
other stands. -/
def Conflicts (function : NodeId) : Prop :=
  ∃ name first second outer inner, first ≠ second ∧ arena.Defines function name first outer ∧
    arena.Defines function name second inner ∧ ¬ (outer = none ∧ inner = none) ∧
    arena.Encloses outer inner

end Notions

/-- A definition in a body is a statement of it. -/
theorem Defines.statement {arena : Arena} {function definition body : NodeId} {name : String}
    (defines : arena.Defines function name definition (some body)) :
    arena.Reachable function body ∧ arena.StandsIn body definition ∧
      arena.MayDefine name definition := by
  cases defines with
  | typed inside stands typed => exact ⟨inside, stands, .inl typed⟩
  | plain inside stands plain _ => exact ⟨inside, stands, .inr plain⟩

theorem child_of_stands {arena : Arena} {body statement : NodeId}
    (stands : arena.StandsIn body statement) : statement ∈ arena.children body := by
  rcases stands with ⟨statements, found, member⟩
  exact child_of_kind found member

/-- A list without repetitions is split at a member in one way only. -/
theorem front_of_split {node : NodeId} {front back other rest : List NodeId}
    (distinct : (front ++ node :: back).Nodup)
    (same : front ++ node :: back = other ++ node :: rest) :
    front = other := by
  rcases List.nodup_append.mp distinct with ⟨-, tail, apart⟩
  have left : node ∉ front := fun member => apart node member node List.mem_cons_self rfl
  have right : node ∉ back := (List.nodup_cons.mp tail).1
  exact ((List.append_cons_inj_of_notMem left right).mp same).1

section Forests

variable {arena : Arena} (forest : arena.Forest) {function earlier middle later node : NodeId}
  {name : String}

include forest

/-- A statement does not lie below another one of its body. -/
theorem front_apart {body next : NodeId} {front back : List NodeId}
    (found : arena.kind? body = some (.body (front ++ next :: back))) (member : earlier ∈ front) :
    ¬ arena.Reachable next earlier := by
  intro below
  have slot : earlier ∈ arena.children body := child_of_kind found (List.mem_append_left _ member)
  have behind : next ∈ arena.children body :=
    child_of_kind found (List.mem_append_right front List.mem_cons_self)
  have same := forest.siblings_disjoint slot behind .refl below
  exact (List.nodup_append.mp (forest.distinct_of_kind found)).2.2 earlier member next
    List.mem_cons_self same

theorem foregoes_irrefl : ¬ arena.Foregoes function node node := by
  intro foregoes
  rcases foregoes with ⟨body, front, next, back, -, found, member, below⟩
  exact front_apart forest found member below

/-- What stands before a statement stands before it in its body, or before that body. -/
theorem foregoes_statement {body statement : NodeId} {front back : List NodeId}
    (found : arena.kind? body = some (.body (front ++ statement :: back)))
    (foregoes : arena.Foregoes function earlier statement) :
    earlier ∈ front ∨ arena.Foregoes function earlier body := by
  rcases foregoes with ⟨other, ahead, next, rest, inside, known, member, below⟩
  have slot : statement ∈ arena.children body :=
    child_of_kind found (List.mem_append_right front List.mem_cons_self)
  rcases Relation.ReflTransGen.cases_tail below with same | ⟨parent, above, last⟩
  · subst same
    have held : statement ∈ arena.children other :=
      child_of_kind known (List.mem_append_right ahead List.mem_cons_self)
    cases forest.single held slot
    have whole := NodeKind.body.inj (Option.some.inj (found.symm.trans known))
    rw [front_of_split (forest.distinct_of_kind found) whole]
    exact .inl member
  · cases forest.single last slot
    exact .inr ⟨other, ahead, next, rest, inside, known, member, above⟩

theorem foregoes_trans (first : arena.Foregoes function earlier middle)
    (second : arena.Foregoes function middle later) : arena.Foregoes function earlier later := by
  rcases second with ⟨body, front, next, back, inside, found, member, below⟩
  rcases List.append_of_mem member with ⟨start, gap, rfl⟩
  have split : start ++ middle :: gap ++ next :: back = start ++ middle :: (gap ++ next :: back) := by
    rw [List.append_assoc, List.cons_append]
  have reaches : arena.Reachable body later :=
    .below_child (child_of_kind found (List.mem_append_right _ List.mem_cons_self)) below
  rcases foregoes_statement forest (split ▸ found) first with before | before
  · exact ⟨body, _, next, back, inside, found, List.mem_append_left _ before, below⟩
  · rcases before with ⟨other, ahead, after, rest, within, known, member, above⟩
    exact ⟨other, ahead, after, rest, within, known, member, above.trans reaches⟩

/-- Of the statements that stand before a node and have some property, one has no other such
one before it. -/
theorem exists_foremost {property : NodeId → Prop} (foregoes : arena.Foregoes function earlier node)
    (met : property earlier) :
    ∃ first, property first ∧ arena.Foregoes function first node ∧
      ∀ other, property other → ¬ arena.Foregoes function other first := by
  let before : Fin arena.size → Fin arena.size → Prop :=
    fun one other => arena.Foregoes function ⟨one⟩ ⟨other⟩
  have transitive : IsTrans _ before := ⟨fun _ _ _ => foregoes_trans forest⟩
  have irreflexive : Std.Irrefl before := ⟨fun _ => foregoes_irrefl forest⟩
  have founded : WellFounded before := Finite.wellFounded_of_trans_of_irrefl before
  have bounded : ∀ {one other}, arena.Foregoes function one other → one.index < arena.size := by
    intro one other foregoes
    rcases foregoes with ⟨body, front, next, back, -, found, member, -⟩
    have slot : one ∈ arena.children body := child_of_kind found (List.mem_append_left _ member)
    exact Nat.lt_trans (forest.below slot) (kind_bound found)
  let chosen : Set (Fin arena.size) :=
    {one | property ⟨one⟩ ∧ arena.Foregoes function ⟨one⟩ node}
  have inhabited : chosen.Nonempty := ⟨⟨earlier.index, bounded foregoes⟩, met, foregoes⟩
  rcases founded.has_min chosen inhabited with ⟨first, ⟨held, ahead⟩, least⟩
  refine ⟨⟨first⟩, held, ahead, ?_⟩
  intro other also further
  exact least ⟨other.index, bounded further⟩ ⟨also, foregoes_trans forest further ahead⟩ further

/-- A name is known at a node exactly if a definition of it holds there: a parameter, or a
statement before the node. -/
theorem known_iff_defined : arena.Known function name node ↔ ∃ definition place,
    arena.Defines function name definition place ∧
      (place = none ∨ arena.Foregoes function definition node) := by
  constructor
  · intro known
    by_cases parametrized : ∃ parameter, arena.HasParameter function name parameter
    · rcases parametrized with ⟨parameter, has⟩
      exact ⟨parameter, none, .parameter has, .inl rfl⟩
    · rcases known with has | ⟨earlier, defines, foregoes⟩
      · exact absurd has parametrized
      · -- The foremost of these statements is a definition, whatever its form.
        rcases exists_foremost forest foregoes defines with ⟨first, held, ahead, foremost⟩
        rcases id ahead with ⟨body, front, next, back, inside, found, member, -⟩
        have stands : arena.StandsIn body first := ⟨_, found, List.mem_append_left _ member⟩
        refine ⟨first, some body, ?_, .inr ahead⟩
        rcases held with typed | plain
        · exact .typed inside stands typed
        · apply Defines.plain inside stands plain
          intro known
          rcases known with has | ⟨other, also, further⟩
          · exact parametrized has
          · exact foremost other also further
  · intro defined
    rcases defined with ⟨definition, place, defines, holds⟩
    cases place with
    | none =>
        cases defines with
        | parameter has => exact .inl ⟨definition, has⟩
    | some body => exact .inr ⟨definition, defines.statement.2.2, holds.resolve_left nofun⟩

omit forest in
theorem not_plain_of_typed {statement : NodeId} (typed : arena.TypedDefinition name statement) :
    ¬ arena.PlainAssignment name statement := by
  rintro ⟨found, named⟩
  rcases typed with again | ⟨again, defines⟩
  · cases found.symm.trans again
  · cases found.symm.trans again
    cases named.symm.trans defines

/-- A plain assignment is a definition exactly if no definition of the name holds there before
it. -/
theorem defines_plain_iff {body statement : NodeId} (inside : arena.Reachable function body)
    (stands : arena.StandsIn body statement) (plain : arena.PlainAssignment name statement) :
    arena.Defines function name statement (some body) ↔
      ¬ ∃ earlier place, arena.Defines function name earlier place ∧
        (place = none ∨ arena.Foregoes function earlier statement) := by
  rw [← known_iff_defined forest]
  constructor
  · intro defines
    cases defines with
    | typed _ _ typed => exact absurd plain (not_plain_of_typed typed)
    | plain _ _ _ unknown => exact unknown
  · exact .plain inside stands plain

/-- What is known at a statement is known at its body, or stands before it there. -/
theorem known_statement {body statement : NodeId} {front back : List NodeId}
    (inside : arena.Reachable function body)
    (found : arena.kind? body = some (.body (front ++ statement :: back))) :
    arena.Known function name statement ↔
      arena.Known function name body ∨ ∃ earlier ∈ front, arena.MayDefine name earlier := by
  have slot : statement ∈ arena.children body :=
    child_of_kind found (List.mem_append_right front List.mem_cons_self)
  constructor
  · intro known
    rcases known with has | ⟨earlier, defines, foregoes⟩
    · exact .inl (.inl has)
    · rcases foregoes_statement forest found foregoes with member | before
      · exact .inr ⟨earlier, member, defines⟩
      · exact .inl (.inr ⟨earlier, defines, before⟩)
  · intro known
    rcases known with known | ⟨earlier, member, defines⟩
    · rcases known with has | ⟨earlier, defines, foregoes⟩
      · exact .inl has
      · rcases foregoes with ⟨other, ahead, next, rest, within, held, member, above⟩
        exact .inr ⟨earlier, defines, other, ahead, next, rest, within, held, member,
          above.trans (Reachable.of_child slot)⟩
    · exact .inr ⟨earlier, defines, body, front, statement, back, inside, found, member, .refl⟩

/-- Where no statements are put before each other, a node knows what its parent knows. -/
theorem known_child {parent child : NodeId} (slot : child ∈ arena.children parent)
    (other : ∀ statements, arena.kind? parent ≠ some (.body statements)) :
    arena.Known function name child ↔ arena.Known function name parent := by
  constructor
  · intro known
    rcases known with has | ⟨earlier, defines, foregoes⟩
    · exact .inl has
    · rcases foregoes with ⟨body, front, next, back, within, held, member, below⟩
      refine .inr ⟨earlier, defines, body, front, next, back, within, held, member, ?_⟩
      rcases Relation.ReflTransGen.cases_tail below with same | ⟨above, reaches, last⟩
      · subst same
        have held' : child ∈ arena.children body :=
          child_of_kind held (List.mem_append_right front List.mem_cons_self)
        cases forest.single held' slot
        exact absurd held (other _)
      · cases forest.single last slot
        exact reaches
  · intro known
    rcases known with has | ⟨earlier, defines, foregoes⟩
    · exact .inl has
    · rcases foregoes with ⟨body, front, next, back, within, held, member, below⟩
      exact .inr ⟨earlier, defines, body, front, next, back, within, held, member,
        below.trans (Reachable.of_child slot)⟩

/-- Nothing but the parameters is known at a function itself. -/
theorem known_function : arena.Known function name function ↔
    ∃ parameter, arena.HasParameter function name parameter := by
  constructor
  · intro known
    rcases known with has | ⟨earlier, defines, foregoes⟩
    · exact has
    · rcases foregoes with ⟨body, front, next, back, inside, found, member, below⟩
      have slot : next ∈ arena.children body :=
        child_of_kind found (List.mem_append_right front List.mem_cons_self)
      exact absurd (below.trans inside) (forest.parent_not_below slot)
  · exact .inl

end Forests

end ModuleLang.Arena
