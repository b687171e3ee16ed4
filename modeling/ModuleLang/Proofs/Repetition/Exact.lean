import ModuleLang.Proofs.Repetition.Effect
import ModuleLang.Proofs.Typing.Places

/-!
Inference reports a name that is defined again exactly if definitions clash. On the way through
statements either nothing is reported of names, and then the frames hold what the tree says they
should hold; or something is, and then there is a clash. What the frames hold after a clash does
not matter any more.
-/

namespace ModuleLang

namespace Scopes

/-- Names that the innermost frame hands on when it is closed. -/
def handed (scopes : Scopes) : Set String :=
  {name | (scopes.top.declared.lookup name).isSome = true} ∪ scopes.held

variable {scopes inner : Scopes} {name : String} {binding : Binding}

theorem held_push : scopes.push.held = ∅ := by
  ext name
  simp [held, nested, push, Frame.inside, Frame.empty]

theorem handed_push : scopes.push.handed = ∅ := by
  ext name
  simp [handed, held, nested, push, Frame.inside, Frame.empty]

/-- One name more is found behind a new entry. -/
theorem lookup_cons_is_some {value : Type} {entries : List (String × value)} {entry : value}
    {other : String} : (((name, entry) :: entries).lookup other).isSome = true ↔
      (entries.lookup other).isSome = true ∨ other = name := by
  rw [List.lookup_cons]
  by_cases same : other = name
  · simp [same]
  · simp [same, beq_eq_false_iff_ne.mpr same]

theorem seen_declare : (scopes.declare name binding).seen = scopes.seen ∪ {name} := by
  ext other
  exact lookup_cons_is_some

theorem handed_declare : (scopes.declare name binding).handed = scopes.handed ∪ {name} := by
  ext other
  have declared : ((scopes.declare name binding).top.declared.lookup other).isSome = true ↔
      (scopes.top.declared.lookup other).isSome = true ∨ other = name := lookup_cons_is_some
  constructor
  · rintro (own | held)
    · exact (declared.mp own).imp .inl id
    · exact .inl (.inr held)
  · rintro ((own | held) | same)
    · exact .inl (declared.mpr (.inl own))
    · exact .inr held
    · exact .inl (declared.mpr (.inr same))

/-- A frame inside others is closed. -/
theorem pop_inside (outer : inner.outer = scopes.top :: scopes.outer) :
    inner.pop = ⟨scopes.top.absorb inner.top, scopes.outer⟩ := by
  unfold pop
  rw [outer]

theorem seen_pop (outer : inner.outer = scopes.top :: scopes.outer) :
    inner.pop.seen = scopes.seen := by
  rw [pop_inside outer]
  rfl

theorem held_pop (outer : inner.outer = scopes.top :: scopes.outer) :
    inner.pop.held = scopes.held ∪ inner.handed := by
  rw [pop_inside outer]
  ext name
  simp [held, handed, nested, Frame.absorb, List.lookup_append]

theorem handed_pop (outer : inner.outer = scopes.top :: scopes.outer) :
    inner.pop.handed = scopes.handed ∪ inner.handed := by
  have held := held_pop outer
  rw [pop_inside outer] at held ⊢
  unfold handed at held ⊢
  rw [held, Set.union_assoc]
  rfl

end Scopes

namespace Inference

variable {limit : Position} {origin : SourceTree} {environment : Environment}

/-- Nothing is reported of the names of some statements, and the frames hold these. -/
structure Unclashed (origin : SourceTree) (nodes : List NodeId) (before after : InferenceState) :
    Prop where
  told : after.told = before.told
  duplicates : after.duplicates = before.duplicates
  outer : after.scopes.outer = before.scopes.outer
  seen : after.scopes.seen = before.scopes.seen ∪ origin.arena.allNames nodes
  held : after.scopes.held = before.scopes.held ∪ origin.arena.allWithin before.scopes.seen nodes
  handed : after.scopes.handed =
    before.scopes.handed ∪ {name | origin.arena.Declares before.scopes.seen nodes name}

/-- More is reported of names if there is a clash, and nothing if there is none. -/
inductive Exact (origin : SourceTree) (nodes : List NodeId) (before after : InferenceState) : Prop
  | silent (silent : Unclashed origin nodes before after)
      (apart : ¬ origin.arena.Clashes before.scopes.seen before.scopes.held nodes)
  | loud (more : before.told.length < after.told.length)
      (clashes : origin.arena.Clashes before.scopes.seen before.scopes.held nodes)

theorem Exact.iff {nodes : List NodeId} {before after : InferenceState}
    (exact : Exact origin nodes before after) :
    origin.arena.Clashes before.scopes.seen before.scopes.held nodes ↔
      after.told ≠ before.told := by
  cases exact with
  | silent silent apart => exact iff_of_false apart (not_not.mpr silent.told)
  | loud more clashes =>
      apply iff_of_true clashes
      intro same
      rw [same] at more
      exact Nat.lt_irrefl _ more

section Lists

variable {node : NodeId} {nodes rest : List NodeId} {before middle after : InferenceState}

theorem Exact.nil (state : InferenceState) : Exact origin [] state state := by
  refine .silent ⟨rfl, rfl, rfl, ?_, ?_, ?_⟩ nofun
  · rw [Arena.all_names_nil, Set.union_empty]
  · rw [Arena.allWithin, Set.union_empty]
  · rw [Arena.declares_nil, Set.union_empty]

/-- The statements that follow matter if the first one was silent. -/
theorem Exact.cons (first : Exact origin [node] before middle)
    (second : Unclashed origin [node] before middle → Exact origin rest middle after)
    (grown : middle.told.length ≤ after.told.length) :
    Exact origin (node :: rest) before after := by
  cases first with
  | loud more clashes =>
      exact .loud (Nat.lt_of_lt_of_le more grown) (Arena.clashes_cons.mpr (.inl clashes))
  | silent silent apart =>
      have seen := silent.seen
      have held := silent.held
      rw [Arena.all_names_singleton] at seen
      rw [Arena.all_within_singleton] at held
      have later := second silent
      cases later with
      | loud more clashes =>
          rw [seen, held] at clashes
          refine .loud ?_ (Arena.clashes_cons.mpr (.inr clashes))
          rw [← silent.told]
          exact more
      | silent next away =>
          refine .silent ⟨next.told.trans silent.told, next.duplicates.trans silent.duplicates,
            next.outer.trans silent.outer, ?_, ?_, ?_⟩ ?_
          · rw [next.seen, seen, Arena.all_names_cons, Set.union_assoc]
          · rw [next.held, held, seen, Arena.allWithin, Set.union_assoc]
          · rw [next.handed, silent.handed, seen, Set.union_assoc]
            congr 1
            ext name
            simp only [Set.mem_union, Set.mem_ofPred_eq]
            rw [Arena.declares_singleton, Arena.declares_cons, or_assoc]
          · intro clashes
            rcases Arena.clashes_cons.mp clashes with clashes | clashes
            · exact apart clashes
            · rw [← seen, ← held] at clashes
              exact away clashes

/-- A statement that holds others does to names what these do. -/
theorem Exact.of_parts {parts : List NodeId}
    (silent : ∀ name, ¬ origin.arena.MayDefine name node)
    (inert : ∀ part ∈ parts, ∀ name, ¬ origin.arena.MayDefine name part)
    (same : ∀ body, origin.arena.Opens node body ↔ ∃ part ∈ parts, origin.arena.Opens part body)
    (exact : Exact origin parts before after) : Exact origin [node] before after := by
  have alone : ∀ other ∈ [node], ∀ name, ¬ origin.arena.MayDefine name other := by
    rw [List.forall_mem_singleton]
    exact silent
  have inside : ∀ {property : NodeId → Prop},
      (∃ part ∈ parts, ∃ body, origin.arena.Opens part body ∧ property body) ↔
        ∃ other ∈ [node], ∃ body, origin.arena.Opens other body ∧ property body := by
    intro property
    constructor
    · rintro ⟨part, member, body, opens, met⟩
      exact ⟨node, List.mem_singleton.mpr rfl, body, (same body).mpr ⟨part, member, opens⟩, met⟩
    · rintro ⟨other, member, body, opens, met⟩
      cases List.mem_singleton.mp member
      rcases (same body).mp opens with ⟨part, member, opens⟩
      exact ⟨part, member, body, opens, met⟩
  have names : origin.arena.allNames parts = origin.arena.allNames [node] := by
    ext name
    apply iff_of_false
    · rintro ⟨part, member, defines⟩
      exact inert part member name defines
    · rintro ⟨other, member, defines⟩
      exact alone other member name defines
  have within : origin.arena.allWithin before.scopes.seen parts =
      origin.arena.allWithin before.scopes.seen [node] := by
    ext name
    exact (Arena.within_parts inert).trans (inside.trans (Arena.within_parts alone).symm)
  have declares : {name | origin.arena.Declares before.scopes.seen parts name} =
      {name | origin.arena.Declares before.scopes.seen [node] name} := by
    ext name
    exact (Arena.declares_parts inert).trans (inside.trans (Arena.declares_parts alone).symm)
  have clashes : origin.arena.Clashes before.scopes.seen before.scopes.held parts ↔
      origin.arena.Clashes before.scopes.seen before.scopes.held [node] :=
    (Arena.clashes_parts inert).trans (inside.trans (Arena.clashes_parts alone).symm)
  cases exact with
  | loud more clash => exact .loud more (clashes.mp clash)
  | silent quiet apart =>
      refine .silent ⟨quiet.told, quiet.duplicates, quiet.outer, ?_, ?_, ?_⟩ ?_
      · rw [quiet.seen, names]
      · rw [quiet.held, within]
      · rw [quiet.handed, declares]
      · exact fun clash => apart (clashes.mpr clash)

/-- What is done before and behind that leaves the names alone does not matter. -/
theorem Exact.between {start final : InferenceState} (first : SameNames start before)
    (exact : Exact origin nodes before after) (last : SameNames after final) :
    Exact origin nodes start final := by
  cases exact with
  | loud more clashes =>
      rw [first.told, ← last.told] at more
      rw [first.scopes] at clashes
      exact .loud more clashes
  | silent silent apart =>
      rw [first.scopes] at apart
      have ⟨told, duplicates, outer, seen, held, handed⟩ := silent
      rw [first.scopes, ← last.scopes] at outer seen held handed
      exact .silent ⟨last.told.trans (told.trans first.told),
        last.duplicates.trans (duplicates.trans first.duplicates), outer, seen, held, handed⟩ apart

/-- The frame of a body is opened before its statements, and closed behind them. -/
theorem Exact.body {statements found : List NodeId} {visited : InferenceState}
    (known : origin.arena.kind? node = some (.body statements))
    (exact : Exact origin statements (opened before) visited) :
    Exact origin [node] before (closed visited node found) := by
  have silent : ∀ name, ¬ origin.arena.MayDefine name node :=
    Arena.not_defines_of_nested known rfl
  have alone : ∀ other ∈ [node], ∀ name, ¬ origin.arena.MayDefine name other := by
    rw [List.forall_mem_singleton]
    exact silent
  -- A body opens nothing but itself.
  have only : ∀ {property : List NodeId → Prop}, (∃ other ∈ [node], ∃ body,
      origin.arena.Opens other body ∧ ∃ held, origin.arena.kind? body = some (.body held) ∧
        property held) ↔ property statements := by
    intro property
    constructor
    · rintro ⟨other, member, body, opens, held, found, met⟩
      cases List.mem_singleton.mp member
      cases opens with
      | itself =>
          cases known.symm.trans found
          exact met
      | held _ _ other => exact absurd known (other _)
    · intro met
      exact ⟨node, List.mem_singleton.mpr rfl, node, .itself known, statements, known, met⟩
  have clashes : origin.arena.Clashes before.scopes.seen before.scopes.held [node] ↔
      origin.arena.Clashes before.scopes.seen ∅ statements :=
    (Arena.clashes_parts alone).trans only
  have names : origin.arena.allNames [node] = ∅ := by
    rw [Arena.all_names_singleton]
    exact Set.eq_empty_of_forall_notMem silent
  have within : origin.arena.allWithin before.scopes.seen [node] =
      {name | origin.arena.Declares before.scopes.seen statements name} := by
    ext name
    exact (Arena.within_parts alone).trans only
  have declares : {name | origin.arena.Declares before.scopes.seen [node] name} =
      {name | origin.arena.Declares before.scopes.seen statements name} := by
    ext name
    exact (Arena.declares_parts alone).trans only
  have entered : (opened before).scopes.held = ∅ := Scopes.held_push
  cases exact with
  | loud more clash =>
      rw [entered] at clash
      exact .loud more (clashes.mpr clash)
  | silent quiet apart =>
      rw [entered] at apart
      have outer : visited.scopes.outer = before.scopes.top :: before.scopes.outer := quiet.outer
      have handed : visited.scopes.handed =
          {name | origin.arena.Declares before.scopes.seen statements name} := by
        have whole := quiet.handed
        rw [show (opened before).scopes.handed = ∅ from Scopes.handed_push, Set.empty_union] at whole
        exact whole
      refine .silent ⟨quiet.told, quiet.duplicates, ?_, ?_, ?_, ?_⟩
        fun clash => apart (clashes.mp clash)
      · change visited.scopes.pop.outer = _
        rw [Scopes.pop_inside outer]
      · rw [names, Set.union_empty]
        exact Scopes.seen_pop outer
      · rw [within, ← handed]
        exact Scopes.held_pop outer
      · rw [declares, ← handed]
        exact Scopes.handed_pop outer

section Leaves

variable (opensNothing : ∀ body, ¬ origin.arena.Opens node body) {seen held : Set String}
  {name : String}

include opensNothing

theorem within_leaf : origin.arena.within seen node = ∅ := by
  apply Set.eq_empty_of_forall_notMem
  rintro name ⟨body, opens, -⟩
  exact opensNothing body opens

theorem declares_leaf :
    origin.arena.Declares seen [node] name ↔ origin.arena.Introduces seen name node := by
  rw [Arena.declares_singleton, within_leaf opensNothing]
  exact or_iff_left (Set.notMem_empty name)

theorem clashes_leaf (clashes : origin.arena.Clashes seen held [node]) :
    ∃ name, origin.arena.Introduces seen name node ∧ name ∈ seen ∪ held := by
  cases clashes with
  | own introduces taken => exact ⟨_, introduces, taken⟩
  | inside opens => exact absurd opens (opensNothing _)
  | later clashes => cases clashes

/-- A statement that introduces no name leaves all as it is. -/
theorem exact_of_same (same : SameNames before after)
    (quiet : ∀ name, ¬ origin.arena.Introduces before.scopes.seen name node) :
    Exact origin [node] before after := by
  have seen : before.scopes.seen ∪ origin.arena.names node = before.scopes.seen := by
    apply Set.union_eq_self_of_subset_right
    intro name defines
    by_contra unseen
    exact quiet name (defines.imp id fun plain => ⟨plain, unseen⟩)
  have none : {name | origin.arena.Declares before.scopes.seen [node] name} = ∅ := by
    apply Set.eq_empty_of_forall_notMem
    intro name found
    exact quiet name ((declares_leaf opensNothing).mp found)
  refine .silent ⟨same.told, same.duplicates, ?_, ?_, ?_, ?_⟩ ?_
  · rw [same.scopes]
  · rw [Arena.all_names_singleton, seen, same.scopes]
  · rw [Arena.all_within_singleton, within_leaf opensNothing, Set.union_empty, same.scopes]
  · rw [none, Set.union_empty, same.scopes]
  · intro clashes
    rcases clashes_leaf opensNothing clashes with ⟨name, introduces, -⟩
    exact quiet name introduces

/-- A statement that introduces a fresh name is silent. -/
theorem exact_of_declared {binding : Binding}
    (introduces : origin.arena.Introduces before.scopes.seen name node)
    (fresh : name ∉ before.scopes.seen ∪ before.scopes.held)
    (scopes : after.scopes = before.scopes.declare name binding)
    (duplicates : after.duplicates = before.duplicates) (told : after.told = before.told) :
    Exact origin [node] before after := by
  have names : origin.arena.names node = {name} := by
    ext other
    constructor
    · intro defines
      exact may_define_unique defines introduces.may_define
    · rintro rfl
      exact introduces.may_define
  have own : {other | origin.arena.Declares before.scopes.seen [node] other} = {name} := by
    ext other
    constructor
    · intro found
      exact may_define_unique ((declares_leaf opensNothing).mp found).may_define
        introduces.may_define
    · rintro rfl
      exact (declares_leaf opensNothing).mpr introduces
  refine .silent ⟨told, duplicates, ?_, ?_, ?_, ?_⟩ ?_
  · rw [scopes]
    rfl
  · rw [scopes, Arena.all_names_singleton, names, Scopes.seen_declare]
  · rw [scopes, Arena.all_within_singleton, within_leaf opensNothing, Set.union_empty]
    rfl
  · rw [scopes, own, Scopes.handed_declare]
  · intro clashes
    rcases clashes_leaf opensNothing clashes with ⟨other, also, taken⟩
    cases may_define_unique also.may_define introduces.may_define
    exact fresh taken

/-- A statement that holds no others. -/
theorem exact_of_effect (effect : NameEffect origin environment node before after)
    (unreported : ∀ id ∈ before.duplicates, ¬ Below origin [node] id) :
    Exact origin [node] before after := by
  cases effect with
  | none same quiet => exact exact_of_same opensNothing same quiet
  | declared introduces fresh _ _ _ _ scopes duplicates told =>
      exact exact_of_declared opensNothing introduces fresh scopes duplicates told
  | @repeated name earlier place middle reported introduces known inside _ approaches ran _ _ _
      told =>
      refine .loud ?_ (.own introduces ?_)
      · have absent : place ∉ middle.duplicates := by
          rw [approaches.names.duplicates]
          intro member
          exact unreported place member (below_singleton.mpr inside)
        rcases ran_report_repetition ran with ⟨fresh, reports, -, -, all, redefines, rfl⟩
        have member : place ∈ fresh := (all place (by simp)).resolve_left absent
        have some : 0 < fresh.length := List.length_pos_of_mem member
        rw [told, ← approaches.names.told]
        unfold InferenceState.told
        rw [List.filter_append, filter_of_redefines redefines, List.length_append,
          redefines.length_eq]
        omega
      · rcases Option.or_eq_some_iff.mp known with visible | ⟨-, held⟩
        · rcases Option.map_eq_some_iff.mp visible with ⟨binding, seen, -⟩
          exact .inl (Option.isSome_of_eq_some seen)
        · exact .inr (Option.isSome_of_eq_some held)

end Leaves

end Lists

section Walks

variable {node : NodeId} {nodes other parts rest : List NodeId} {kind : NodeKind NodeId}
  {before middle after : InferenceState}

theorem below_parts (known : origin.arena.kind? node = some kind) (held : parts ⊆ kind.children) :
    ∀ id, Below origin parts id → Below origin [node] id := by
  rintro id ⟨part, member, reaches⟩
  exact (below_children known).mpr (.inr ⟨part, held member, reaches⟩)

/-- No node below some nodes was reported. -/
def Unreported (origin : SourceTree) (nodes : List NodeId) (state : InferenceState) : Prop :=
  ∀ id ∈ state.duplicates, ¬ Below origin nodes id

theorem Unreported.weaken (unreported : Unreported origin nodes before)
    (same : after.duplicates = before.duplicates)
    (covered : ∀ id, Below origin other id → Below origin nodes id) :
    Unreported origin other after := by
  intro id member below
  rw [same] at member
  exact unreported id member (covered id below)

theorem Unreported.head (unreported : Unreported origin (node :: rest) before) :
    Unreported origin [node] before :=
  unreported.weaken rfl fun _ inside => below_cons.mpr (.inl inside)

/-- What follows a silent statement is still unreported. -/
theorem Unreported.tail (unreported : Unreported origin (node :: rest) before)
    (silent : Unclashed origin [node] before after) : Unreported origin rest after :=
  unreported.weaken silent.duplicates fun _ inside => below_cons.mpr (.inr inside)

theorem told_of_leaves {region : Region} (leaves : Leaves region before after) :
    before.told.length ≤ after.told.length :=
  (leaves.diagnostics.filter _).length_le

/-- A condition declares no names. -/
theorem same_names_asked {condition : NodeId}
    (ran : Ran (predicate environment condition) before ⟨⟩ after) : SameNames before after :=
  same_names_frame.keeps_predicate environment _ _ _ _ ran

/-- A statement with bodies in some of its slots does what these do. -/
theorem Exact.of_bodies (constructed : origin.Constructed limit)
    (known : origin.arena.kind? node = some kind) (nested : kind.isNested = true)
    (other : ∀ held, kind ≠ .body held) (bodies : ∀ part ∈ parts, (Category.body, part) ∈ kind.slots)
    (rest : ∀ slot ∈ kind.slots, slot.2 ∈ parts ∨ slot.1.isInner = true)
    (exact : Exact origin parts before after) : Exact origin [node] before after := by
  apply Exact.of_parts (Arena.not_defines_of_nested known nested) _ _ exact
  · intro part member
    rcases constructed.admitted known _ (bodies part member) with ⟨held, found, admits⟩
    cases held with
    | body => exact Arena.not_defines_of_nested found rfl
    | _ => cases admits
  · intro body
    exact Arena.opens_iff_parts constructed known other bodies rest

end Walks

/-- Statements report of names exactly if they clash with what the frames hold. -/
theorem Walk.exact (constructed : origin.Constructed limit) {nodes found : List NodeId}
    {before after : InferenceState}
    (walk : Walk limit origin environment nodes before found after)
    (siblings : Siblings origin nodes) (unreported : Unreported origin nodes before) :
    Exact origin nodes before after := by
  induction walk with
  | nil => exact .nil _
  | leaf check known plain admits ready ran taken later ih =>
      apply Exact.cons _ (fun silent => ih siblings.tail (unreported.tail silent))
        (told_of_leaves later.leaves)
      exact exact_of_effect (fun _ => Arena.not_opens_of_leaf constructed known plain admits)
        (effect_of_leaf constructed known plain admits ready ran) unreported.head
  | body known ready inside work later inner ih =>
      apply Exact.cons _ (fun silent => ih siblings.tail (unreported.tail silent))
        (told_of_leaves later.leaves)
      apply Exact.body known
      apply inner (siblings_of_kind known (List.Sublist.refl _))
      exact unreported.head.weaken rfl (below_parts known (List.Subset.refl _))
  | @condition node condition thenBody elseBody _ _ before first _ _ _ known ready asked askedWork
      thenWalk elseWalk work later thenPart elsePart ih =>
      apply Exact.cons _ (fun silent => ih siblings.tail (unreported.tail silent))
        (told_of_leaves later.leaves)
      have same := same_names_asked asked
      have blocks : Siblings origin (thenBody :: elseBody.toList) :=
        siblings_of_kind known (List.sublist_cons_self _ _)
      have fresh : Unreported origin (thenBody :: elseBody.toList) first :=
        unreported.head.weaken same.duplicates (below_parts known (List.subset_cons_self _ _))
      have whole := Exact.cons (thenPart blocks.head fresh.head)
        (fun silent => elsePart blocks.tail (fresh.tail silent)) (told_of_leaves elseWalk.leaves)
      apply Exact.between same _ (same_names_frame.refl _)
      apply Exact.of_bodies constructed known rfl (fun _ same => by cases same) _ _ whole
      · simp [NodeKind.slots]
      · simp +contextual [NodeKind.slots, Category.isInner]
  | @loop node condition block _ _ before first second _ known ready asked askedWork inside work
      later inner ih =>
      apply Exact.cons _ (fun silent => ih siblings.tail (unreported.tail silent))
        (told_of_leaves later.leaves)
      have same := same_names_asked asked
      have fresh : Unreported origin [block] (deeper first) :=
        unreported.head.weaken same.duplicates (below_parts known (List.subset_cons_self _ _))
      have whole := inner (siblings_of_kind known (List.sublist_cons_self _ _)) fresh
      -- The count of loops is no part of the names.
      have entered : SameNames first (deeper first) := ⟨rfl, rfl, rfl⟩
      have left : SameNames second (shallower second) := ⟨rfl, rfl, rfl⟩
      have counted := Exact.between entered whole left
      apply Exact.between same _ (same_names_frame.refl _)
      apply Exact.of_bodies constructed known rfl (fun _ same => by cases same) _ _ counted
      · simp [NodeKind.slots]
      · simp [NodeKind.slots, Category.isInner]

end Inference

end ModuleLang
