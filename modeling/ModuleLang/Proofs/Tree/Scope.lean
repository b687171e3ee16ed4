import ModuleLang.Proofs.Tree.Forest

/-!
Scopes in a tree. What a name may mean is said by the place where it stands: it
sees the definitions that are assigned in statements before it, in its own body
and in the bodies around that. `Scoped` lists the visible names while it goes
through statements, and where it succeeds every name sees exactly one binder.
-/

namespace ModuleLang

/-- Whether a node opens a scope or declares a variable. -/
def NodeKind.isBinding {slot : Type} : NodeKind slot → Bool
  | body _ | definition .. => true
  | _ => false

/-- Visible names with their binders, the last declared one first. -/
abbrev Visible := List (String × NodeId)

namespace Arena

variable (arena : Arena)

/-- The variable that a statement defines. -/
def defines? (statement : NodeId) : Option NodeId :=
  match arena.kind? statement with
  | some (.assign _ target _) =>
      match arena.kind? target with
      | some (.definition ..) => some target
      | _ => none
  | _ => none

/-- The way down from a node to another one, with the definitions that are
assigned before it in the bodies on the way. -/
inductive Sees : NodeId → NodeId → List NodeId → Prop
  | here {node} : Sees node node []
  | inBody {body earlier statement later node binders}
      (found : arena.kind? body = some (.body (earlier ++ statement :: later)))
      (below : Sees statement node binders) :
      Sees body node (earlier.filterMap arena.defines? ++ binders)
  | inside {parent child node binders} (slot : child ∈ arena.children parent)
      (other : ∀ statements, arena.kind? parent ≠ some (.body statements))
      (below : Sees child node binders) : Sees parent node binders

/-- At and below a node nothing is declared, and every name is visible and has the
type of its binder. -/
def Resolves (visible : Visible) (node : NodeId) : Prop :=
  ∀ id, arena.Reachable node id → ∃ kind, arena.kind? id = some kind ∧ kind.isBinding = false ∧
    ∀ name, kind = .member name → ∃ binder, visible.lookup name = some binder ∧
      arena.type? id = arena.type? binder

/-- Statements with the names that are visible before and behind them. -/
inductive Scoped : Visible → List NodeId → Visible → Prop
  | nil {visible} : Scoped visible [] visible
  | plain {visible statement rest after} (resolves : arena.Resolves visible statement)
      (later : Scoped visible rest after) : Scoped visible (statement :: rest) after
  | define {visible statement target value written name rest after}
      (found : arena.kind? statement = some (.assign .assign target value))
      (definition : arena.kind? target = some (.definition written name))
      (fresh : visible.lookup name = none)
      (spelled : ∀ node ∈ written, arena.Resolves visible node)
      (resolves : arena.Resolves visible value)
      (later : Scoped ((name, target) :: visible) rest after) :
      Scoped visible (statement :: rest) after
  | body {visible statement inner rest last after}
      (found : arena.kind? statement = some (.body inner)) (inside : Scoped visible inner last)
      (later : Scoped visible rest after) : Scoped visible (statement :: rest) after
  | condition {visible statement predicate thenBody elseBody rest first second after}
      (found : arena.kind? statement = some (.condition predicate thenBody elseBody))
      (decides : arena.Resolves visible predicate) (taken : Scoped visible [thenBody] first)
      (other : Scoped visible elseBody.toList second) (later : Scoped visible rest after) :
      Scoped visible (statement :: rest) after
  | loop {visible statement predicate block rest last after}
      (found : arena.kind? statement = some (.loop predicate block))
      (decides : arena.Resolves visible predicate) (inside : Scoped visible [block] last)
      (later : Scoped visible rest after) : Scoped visible (statement :: rest) after

/-- The visible names differ, and are those of their binders. -/
structure Distinct (visible : Visible) : Prop where
  nodup : (visible.map Prod.fst).Nodup
  named : ∀ entry ∈ visible, arena.name? entry.2 = some entry.1

/-- A name that stands in a place where some binders are seen means one of them. -/
def Means (binders : List NodeId) (node : NodeId) (name : String) : Prop :=
  ∃ binder, binders.filter (fun other => arena.name? other == some name) = [binder] ∧
    arena.type? node = arena.type? binder

variable {arena}

theorem sees_of_reachable {node id : NodeId} (below : arena.Reachable node id) :
    ∃ binders, arena.Sees node id binders := by
  induction below using Relation.ReflTransGen.head_induction_on with
  | refl => exact ⟨[], .here⟩
  | @head parent child slot _ ih =>
      obtain ⟨binders, sees⟩ := ih
      obtain ⟨kind, found, member⟩ := kind_of_child slot
      by_cases isBody : ∃ statements, kind = .body statements
      · obtain ⟨statements, rfl⟩ := isBody
        obtain ⟨earlier, later, rfl⟩ := List.append_of_mem member
        exact ⟨_, .inBody found sees⟩
      · refine ⟨binders, .inside slot (fun statements same => isBody ⟨statements, ?_⟩) sees⟩
        exact Option.some.inj (found.symm.trans same)

theorem Sees.reachable {node id : NodeId} {binders : List NodeId}
    (sees : arena.Sees node id binders) : arena.Reachable node id := by
  induction sees with
  | here => exact .refl
  | inBody found _ ih =>
      refine .below_child ?_ ih
      exact child_of_kind found (List.mem_append_right _ List.mem_cons_self)
  | inside slot _ _ ih => exact .below_child slot ih

section Resolved

variable {visible : Visible} {node id : NodeId} {kind : NodeKind NodeId} {binders : List NodeId}

theorem Resolves.below (resolves : arena.Resolves visible node) (below : arena.Reachable node id) :
    arena.Resolves visible id :=
  fun other further => resolves other (below.trans further)

theorem Resolves.quiet (resolves : arena.Resolves visible node) (below : arena.Reachable node id)
    (found : arena.kind? id = some kind) : kind.isBinding = false := by
  obtain ⟨_, known, quiet, -⟩ := resolves id below
  cases found.symm.trans known
  exact quiet

/-- No definition is seen on a way through nodes that declare nothing. -/
theorem Resolves.sees_nothing (resolves : arena.Resolves visible node)
    (sees : arena.Sees node id binders) : binders = [] := by
  induction sees with
  | here => rfl
  | inBody found _ _ => cases resolves.quiet .refl found
  | inside slot _ _ ih => exact ih (resolves.below (.of_child slot))

theorem Resolves.defines_nothing (resolves : arena.Resolves visible node) :
    arena.defines? node = none := by
  unfold defines?
  split
  · rename_i target _ found
    split
    · rename_i known
      have slot : target ∈ arena.children node := child_of_kind found List.mem_cons_self
      cases resolves.quiet (.of_child slot) known
    · rfl
  · rfl

theorem resolves_of_children (found : arena.kind? node = some kind)
    (quiet : kind.isBinding = false) (other : ∀ name, kind ≠ .member name)
    (each : ∀ child ∈ kind.children, arena.Resolves visible child) :
    arena.Resolves visible node := by
  intro id below
  obtain rfl | ⟨child, slot, below⟩ := reachable_cases below
  · exact ⟨kind, found, quiet, fun name same => absurd same (other name)⟩
  · rw [children_of_kind found] at slot
    exact each child slot id below

theorem resolves_member {name : String} {binder : NodeId}
    (found : arena.kind? node = some (.member name)) (seen : visible.lookup name = some binder)
    (typed : arena.type? node = arena.type? binder) : arena.Resolves visible node := by
  intro id below
  obtain rfl | ⟨child, slot, -⟩ := reachable_cases below
  · refine ⟨_, found, rfl, ?_⟩
    rintro _ ⟨⟩
    exact ⟨binder, seen, typed⟩
  · rw [children_of_kind found] at slot
    cases slot

/-- A visible name means its binder where nothing else is seen. -/
theorem Distinct.means {name : String} {binder : NodeId} (distinct : arena.Distinct visible)
    (seen : visible.lookup name = some binder) (typed : arena.type? node = arena.type? binder) :
    arena.Means (visible.map Prod.snd) node name := by
  refine ⟨binder, ?_, typed⟩
  obtain ⟨nodup, named⟩ := distinct
  induction visible with
  | nil => cases seen
  | cons entry visible ih =>
      obtain ⟨own, other⟩ := entry
      rw [List.map_cons, List.nodup_cons] at nodup
      have first := named _ List.mem_cons_self
      have rest := fun entry member => named entry (List.mem_cons_of_mem _ member)
      rw [List.map_cons, List.filter_cons]
      by_cases same : name = own
      · subst same
        rw [List.lookup_cons_self] at seen
        cases seen
        rw [if_pos (by simp [first]), List.cons.injEq]
        refine ⟨rfl, List.filter_eq_nil_iff.mpr fun other member equal => nodup.1 ?_⟩
        obtain ⟨entry, held, rfl⟩ := List.mem_map.mp member
        have known := rest entry held
        rw [eq_of_beq equal] at known
        exact List.mem_map.mpr ⟨entry, held, (Option.some.inj known).symm⟩
      · rw [List.lookup_cons, beq_eq_false_iff_ne.mpr same] at seen
        rw [if_neg (by simp [first, Ne.symm same])]
        exact ih seen nodup.2 rest

theorem Distinct.cons {name : String} (distinct : arena.Distinct visible)
    (fresh : visible.lookup name = none) (named : arena.name? node = some name) :
    arena.Distinct ((name, node) :: visible) where
  nodup := by
    rw [List.map_cons, List.nodup_cons]
    refine ⟨fun member => ?_, distinct.nodup⟩
    obtain ⟨entry, held, same⟩ := List.mem_map.mp member
    have differ := List.lookup_eq_none_iff.mp fresh entry held
    rw [same] at differ
    simp at differ
  named entry member := by
    obtain rfl | member := List.mem_cons.mp member
    · exact named
    · exact distinct.named entry member

theorem Means.perm {first second : List NodeId} {name : String}
    (means : arena.Means first node name) (same : first.Perm second) :
    arena.Means second node name := by
  obtain ⟨binder, only, typed⟩ := means
  have filtered := same.filter fun other => arena.name? other == some name
  rw [only] at filtered
  exact ⟨binder, (List.singleton_perm.mp filtered).symm, typed⟩

/-- A name among nodes that declare nothing. -/
theorem Distinct.resolves_means {name : String} (distinct : arena.Distinct visible)
    (resolves : arena.Resolves visible node) (sees : arena.Sees node id binders)
    (known : arena.kind? id = some (.member name)) :
    arena.Means (visible.map Prod.snd ++ binders) id name := by
  obtain ⟨_, found, -, resolved⟩ := resolves id sees.reachable
  cases known.symm.trans found
  obtain ⟨binder, seen, typed⟩ := resolved name rfl
  rw [resolves.sees_nothing sees, List.append_nil]
  exact distinct.means seen typed

end Resolved

section Scoped

variable {visible after : Visible} {nodes : List NodeId}

/-- In scoped statements every name means exactly one of the binders that it sees. -/
theorem Scoped.means (ruled : arena.Scoped visible nodes after)
    (distinct : arena.Distinct visible) {earlier later binders : List NodeId} {statement id : NodeId}
    {name : String} (split : nodes = earlier ++ statement :: later)
    (sees : arena.Sees statement id binders) (known : arena.kind? id = some (.member name)) :
    arena.Means (visible.map Prod.snd ++ (earlier.filterMap arena.defines? ++ binders)) id name := by
  -- A statement that defines nothing is passed over on the way to a later one.
  have pass : ∀ {first : NodeId} {earlier binders : List NodeId} {visible : Visible},
      arena.defines? first = none →
      arena.Means (visible.map Prod.snd ++ (earlier.filterMap arena.defines? ++ binders)) id name →
      arena.Means (visible.map Prod.snd ++
        ((first :: earlier).filterMap arena.defines? ++ binders)) id name := by
    intro first earlier binders visible none means
    rw [List.filterMap_cons_none none]
    exact means
  induction ruled generalizing earlier later binders statement with
  | nil => simp at split
  | plain resolves _ ih =>
      obtain ⟨rfl, same⟩ | ⟨passed, rfl, same⟩ := List.cons_eq_append_iff.mp split
      · cases same
        exact distinct.resolves_means resolves sees known
      · exact pass resolves.defines_nothing (ih distinct same sees)
  | @define visible first target value written name' rest after found definition fresh spelled
      resolves _ ih =>
      obtain ⟨rfl, same⟩ | ⟨passed, rfl, same⟩ := List.cons_eq_append_iff.mp split
      · cases same
        cases sees with
        | here => cases found.symm.trans known
        | inBody held => cases found.symm.trans held
        | inside slot _ below =>
            rw [children_of_kind found, NodeKind.children, List.mem_cons, List.mem_singleton] at slot
            obtain rfl | rfl := slot
            · cases below with
              | here => cases definition.symm.trans known
              | inBody held => cases definition.symm.trans held
              | inside slot _ below =>
                  rw [children_of_kind definition, NodeKind.children, Option.mem_toList] at slot
                  exact distinct.resolves_means (spelled _ slot) below known
            · exact distinct.resolves_means resolves below known
      · have named : arena.name? target = some name' := by simp [name?, definition, NodeKind.name?]
        have defined : arena.defines? first = some target := by simp [defines?, found, definition]
        refine (ih (distinct.cons fresh named) same sees).perm ?_
        rw [List.filterMap_cons_some defined, List.map_cons, List.cons_append, List.cons_append]
        exact List.perm_middle.symm
  | body found _ _ ih rest =>
      obtain ⟨rfl, same⟩ | ⟨passed, rfl, same⟩ := List.cons_eq_append_iff.mp split
      · cases same
        cases sees with
        | here => cases found.symm.trans known
        | inBody held below =>
            cases found.symm.trans held
            have inner := ih distinct rfl below
            exact inner
        | inside _ other => exact absurd found (other _)
      · exact pass (by simp [defines?, found]) (rest distinct same sees)
  | @condition _ _ _ _ elseBody _ _ _ _ found decides _ _ _ takenIh otherIh rest =>
      obtain ⟨rfl, same⟩ | ⟨passed, rfl, same⟩ := List.cons_eq_append_iff.mp split
      · cases same
        cases sees with
        | here => cases found.symm.trans known
        | inBody held => cases found.symm.trans held
        | inside slot _ below =>
            rw [children_of_kind found, NodeKind.children, List.mem_cons, List.mem_cons] at slot
            obtain rfl | rfl | slot := slot
            · exact distinct.resolves_means decides below known
            · exact takenIh distinct (List.nil_append _).symm below
            · rw [Option.mem_toList] at slot
              cases slot
              exact otherIh distinct (List.nil_append _).symm below
      · exact pass (by simp [defines?, found]) (rest distinct same sees)
  | loop found decides _ _ ih rest =>
      obtain ⟨rfl, same⟩ | ⟨passed, rfl, same⟩ := List.cons_eq_append_iff.mp split
      · cases same
        cases sees with
        | here => cases found.symm.trans known
        | inBody held => cases found.symm.trans held
        | inside slot _ below =>
            rw [children_of_kind found, NodeKind.children, List.mem_cons, List.mem_singleton] at slot
            obtain rfl | rfl := slot
            · exact distinct.resolves_means decides below known
            · exact ih distinct (List.nil_append _).symm below
      · exact pass (by simp [defines?, found]) (rest distinct same sees)

/-- In scoped statements every definition is the target of a plain assignment. -/
theorem Scoped.assigned (ruled : arena.Scoped visible nodes after) {node id : NodeId}
    (member : node ∈ nodes) (below : arena.Reachable node id) {written : Option NodeId}
    {name : String} (known : arena.kind? id = some (.definition written name)) :
    ∃ statement value, arena.Reachable node statement ∧
      arena.kind? statement = some (.assign .assign id value) := by
  have quiet : ∀ {visible : Visible} {other : NodeId}, arena.Resolves visible other →
      arena.Reachable other id → False := by
    intro visible other resolves below
    cases resolves.quiet below known
  induction ruled generalizing node with
  | nil => cases member
  | plain resolves _ ih =>
      obtain rfl | member := List.mem_cons.mp member
      · exact (quiet resolves below).elim
      · exact ih member below
  | define found definition _ spelled resolves _ ih =>
      obtain rfl | member := List.mem_cons.mp member
      · obtain rfl | ⟨child, slot, below⟩ := reachable_cases below
        · cases found.symm.trans known
        · rw [children_of_kind found, NodeKind.children, List.mem_cons, List.mem_singleton] at slot
          obtain rfl | rfl := slot
          · obtain rfl | ⟨child, slot, below⟩ := reachable_cases below
            · exact ⟨node, _, .refl, found⟩
            · rw [children_of_kind definition, NodeKind.children, Option.mem_toList] at slot
              exact (quiet (spelled _ slot) below).elim
          · exact (quiet resolves below).elim
      · exact ih member below
  | body found _ _ ih later =>
      obtain rfl | member := List.mem_cons.mp member
      · obtain rfl | ⟨child, slot, below⟩ := reachable_cases below
        · cases found.symm.trans known
        · rw [children_of_kind found] at slot
          obtain ⟨statement, value, above, assigns⟩ := ih slot below
          refine ⟨statement, value, .below_child ?_ above, assigns⟩
          exact child_of_kind found slot
      · exact later member below
  | condition found decides _ _ _ takenIh otherIh later =>
      obtain rfl | member := List.mem_cons.mp member
      · obtain rfl | ⟨child, slot, below⟩ := reachable_cases below
        · cases found.symm.trans known
        · have inner : ∃ statement value, arena.Reachable child statement ∧
              arena.kind? statement = some (.assign .assign id value) := by
            rw [children_of_kind found, NodeKind.children, List.mem_cons, List.mem_cons] at slot
            obtain rfl | rfl | slot := slot
            · exact (quiet decides below).elim
            · exact takenIh List.mem_cons_self below
            · exact otherIh slot below
          obtain ⟨statement, value, above, assigns⟩ := inner
          exact ⟨statement, value, .below_child slot above, assigns⟩
      · exact later member below
  | loop found decides _ _ ih later =>
      obtain rfl | member := List.mem_cons.mp member
      · obtain rfl | ⟨child, slot, below⟩ := reachable_cases below
        · cases found.symm.trans known
        · have inner : ∃ statement value, arena.Reachable child statement ∧
              arena.kind? statement = some (.assign .assign id value) := by
            rw [children_of_kind found, NodeKind.children, List.mem_cons, List.mem_singleton] at slot
            obtain rfl | rfl := slot
            · exact (quiet decides below).elim
            · exact ih List.mem_cons_self below
          obtain ⟨statement, value, above, assigns⟩ := inner
          exact ⟨statement, value, .below_child slot above, assigns⟩
      · exact later member below

end Scoped

end Arena

end ModuleLang
