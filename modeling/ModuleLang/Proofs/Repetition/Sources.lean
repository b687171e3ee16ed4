import ModuleLang.Proofs.Repetition.Exact

/-!
Where the reports about names come from. A node that declares a name comes from a place in the
parsed tree: it is that place, or takes over its span. It is shown that every node is reported
once only, at the span of its place, and that no two of these nodes come from one place.
-/

namespace ModuleLang

/-- Names of a frame with the nodes that declare them. -/
def Frame.entries (frame : Frame) : List (String × NodeId) :=
  frame.visible.map (fun entry => (entry.1, entry.2.node)) ++ frame.declared ++ frame.nested

namespace Scopes

/-- Names of all open frames with the nodes that declare them. -/
def entries (scopes : Scopes) : List (String × NodeId) :=
  scopes.top.entries ++ scopes.outer.flatMap Frame.entries

variable {scopes : Scopes} {name : String} {binding : Binding} {node : NodeId}
  {entry : String × NodeId}

theorem entry_of_lookup (found : scopes.lookup name = some binding) :
    (name, binding.node) ∈ scopes.entries := by
  rcases List.lookup_eq_some_iff.mp found with ⟨front, back, same, -⟩
  simp [entries, Frame.entries, same]

theorem entry_of_nested (found : scopes.nested name = some node) :
    (name, node) ∈ scopes.entries := by
  rcases List.lookup_eq_some_iff.mp found with ⟨front, back, same, -⟩
  simp [entries, Frame.entries, same]

theorem entries_declare (member : entry ∈ (scopes.declare name binding).entries) :
    entry = (name, binding.node) ∨ entry ∈ scopes.entries := by
  simp only [entries, declare, Frame.declare, Frame.entries, List.map_cons, List.mem_append,
    List.mem_cons] at *
  tauto

theorem entries_push : scopes.push.entries ⊆ scopes.entries := by
  intro entry member
  simp only [entries, push, Frame.inside, Frame.empty, Frame.entries, List.append_nil,
    List.flatMap_cons, List.mem_append] at *
  tauto

theorem entries_pop : scopes.pop.entries ⊆ scopes.entries := by
  intro entry member
  rcases scopes with ⟨top, outer⟩
  cases outer with
  | nil => exact member
  | cons parent outer =>
      simp only [entries, pop, Frame.absorb, Frame.entries, List.flatMap_cons,
        List.mem_append] at *
      tauto

end Scopes

/-- A report that a name is defined again, at a node that may define it. -/
def SourceTree.RedefinedAt (tree : SourceTree) (fileName : String) (found : Diagnostic)
    (place : NodeId) : Prop :=
  ∃ name span, tree.arena.MayDefineAt name place ∧ tree.spans.span? place = some span ∧
    found = ⟨.duplicateVariable name, span, fileName⟩

namespace Inference

variable {limit : Position} {origin : SourceTree} {environment : Environment}

/-- Some nodes with their places are reported, each of them once. -/
structure Tallied (origin : SourceTree) (environment : Environment)
    (repeated : List (NodeId × NodeId)) (start state : InferenceState) : Prop where
  distinct : repeated.Nodup
  noted : state.duplicates = (repeated.map Prod.fst).reverse ++ start.duplicates
  told : ∃ reports, state.told = start.told ++ reports ∧ List.Forall₂
    (fun found source => origin.RedefinedAt environment.fileName found source.2) reports repeated

/-- Nodes that declare names, each with its place. All visible names are declared by such nodes,
and all nodes that were reported are among them. -/
structure Attributed (origin : SourceTree) (environment : Environment) (start : InferenceState)
    (sources : List (NodeId × NodeId)) (state : InferenceState) : Prop where
  places : (sources.map Prod.snd).Nodup
  bound : ∀ source ∈ sources, source.1.index < state.size
  span : ∀ source ∈ sources, state.span? source.1 = origin.spans.span? source.2
  scopes : ∀ entry ∈ state.scopes.entries, ∃ place, (entry.2, place) ∈ sources ∧
    origin.arena.MayDefineAt entry.1 place
  reported : ∃ repeated, repeated ⊆ sources ∧ Tallied origin environment repeated start state

/-- Neither a node nor its place lies below some nodes. -/
def Outlies (origin : SourceTree) (nodes : List NodeId) (source : NodeId × NodeId) : Prop :=
  ¬ Below origin nodes source.1 ∧ ¬ Below origin nodes source.2

/-- The place lies below some nodes, and so does the node, unless that is a new one. -/
def Arises (origin : SourceTree) (nodes : List NodeId) (source : NodeId × NodeId) : Prop :=
  (Below origin nodes source.1 ∨ origin.arena.size ≤ source.1.index) ∧ Below origin nodes source.2

section Steps

variable {node place earlier : NodeId} {nodes other rest : List NodeId}
  {sources added : List (NodeId × NodeId)} {source : NodeId × NodeId} {name : String}
  {start before middle after final : InferenceState}

theorem Outlies.weaken (outlies : Outlies origin nodes source)
    (covered : ∀ id, Below origin other id → Below origin nodes id) : Outlies origin other source :=
  ⟨fun below => outlies.1 (covered _ below), fun below => outlies.2 (covered _ below)⟩

theorem Arises.weaken (arises : Arises origin nodes source)
    (covered : ∀ id, Below origin nodes id → Below origin other id) : Arises origin other source :=
  ⟨arises.1.imp_left (covered _), covered _ arises.2⟩

/-- What arises from one of some siblings is not below the others. -/
theorem Arises.outlies (constructed : origin.Constructed limit)
    (siblings : Siblings origin (node :: rest)) (arises : Arises origin [node] source) :
    Outlies origin rest source := by
  refine ⟨?_, siblings.apart constructed arises.2⟩
  rcases arises.1 with inside | new
  · exact siblings.apart constructed inside
  · intro below
    exact Nat.not_lt.mpr new (siblings.bounded constructed (below_cons.mpr (.inr below)))

/-- Reports of some nodes are reports of their places. -/
theorem sourced_of_redefines {reports : List Diagnostic} {fresh : List NodeId}
    (sourced : ∀ node ∈ fresh, ∃ place, (node, place) ∈ sources ∧
      origin.arena.MayDefineAt name place ∧ middle.span? node = origin.spans.span? place)
    (redefines : List.Forall₂ (Redefines environment middle name) reports fresh) :
    ∃ more, more ⊆ sources ∧ more.map Prod.fst = fresh ∧ List.Forall₂
      (fun found source => origin.RedefinedAt environment.fileName found source.2) reports more := by
  induction redefines with
  | nil => exact ⟨[], List.nil_subset _, rfl, .nil⟩
  | @cons found node _ _ first _ ih =>
      rcases ih (fun other member => sourced other (List.mem_cons_of_mem _ member)) with
        ⟨more, among, same, each⟩
      rcases sourced node List.mem_cons_self with ⟨place, member, named, placed⟩
      rcases first with ⟨span, known, rfl⟩
      refine ⟨(node, place) :: more, List.cons_subset.mpr ⟨member, among⟩, ?_, .cons ?_ each⟩
      · rw [List.map_cons, same]
      · exact ⟨name, span, named, placed.symm.trans known, rfl⟩

/-- Nodes that were reported before are not reported once more. -/
theorem Tallied.again {repeated : List (NodeId × NodeId)}
    (tallied : Tallied origin environment repeated start before) (names : SameNames before middle)
    (sourced : ∀ node ∈ [earlier, place], ∃ place, (node, place) ∈ sources ∧
      origin.arena.MayDefineAt name place ∧ middle.span? node = origin.spans.span? place)
    (ran : Ran (reportDuplicate environment earlier place name) middle ⟨⟩ final) :
    ∃ more, more ⊆ sources ∧ Tallied origin environment (repeated ++ more) start final := by
  rcases ran_report_repetition ran with ⟨fresh, reports, distinct, new, -, redefines, rfl⟩
  rcases sourced_of_redefines (fun node member => sourced node (new node member).1) redefines with
    ⟨more, among, same, each⟩
  rcases tallied.told with ⟨said, told, before⟩
  refine ⟨more, among, ?_, ?_, said ++ reports, ?_, List.rel_append before each⟩
  · apply List.nodup_append.mpr
    refine ⟨tallied.distinct, .of_map Prod.fst (same ▸ distinct), ?_⟩
    rintro source old _ again rfl
    have isNew : source.1 ∈ fresh := same ▸ List.mem_map_of_mem again
    apply (new _ isNew).2
    rw [names.duplicates, tallied.noted, List.mem_append, List.mem_reverse]
    exact .inl (List.mem_map_of_mem old)
  · change fresh.reverse ++ middle.duplicates = _
    rw [names.duplicates, tallied.noted, List.map_append, same, List.reverse_append,
      List.append_assoc]
  · have whole : (middle.diagnostics ++ reports).filter (fun found => found.kind.isRepetition) =
        middle.told ++ reports := by
      rw [List.filter_append, filter_of_redefines redefines]
      rfl
    exact whole.trans (by rw [names.told, told, List.append_assoc])

/-- The names and what was reported of them are as before, or fewer are visible. -/
theorem Attributed.later (attributed : Attributed origin environment start sources before)
    (size : before.size ≤ after.size)
    (spans : ∀ source ∈ sources, after.span? source.1 = before.span? source.1)
    (entries : after.scopes.entries ⊆ before.scopes.entries)
    (duplicates : after.duplicates = before.duplicates) (told : after.told = before.told) :
    Attributed origin environment start sources after where
  places := attributed.places
  bound source member := Nat.lt_of_lt_of_le (attributed.bound source member) size
  span source member := (spans source member).trans (attributed.span source member)
  scopes entry member := attributed.scopes entry (entries member)
  reported := by
    rcases attributed.reported with ⟨repeated, among, distinct, noted, reports⟩
    exact ⟨repeated, among, distinct, duplicates.trans noted, told ▸ reports⟩

/-- Names stay as they are while nodes below others are changed. -/
theorem Attributed.beside (attributed : Attributed origin environment start sources before)
    (outlies : ∀ source ∈ sources, Outlies origin nodes source)
    (leaves : Leaves (Below origin nodes) before after) (names : SameNames before after) :
    Attributed origin environment start sources after := by
  apply attributed.later leaves.size _ _ names.duplicates names.told
  · intro source member
    exact leaves.span source.1 (attributed.bound source member) (outlies source member).1
  · rw [names.scopes]
    exact List.Subset.refl _

/-- One more node declares a name, at a place where no other one comes from. -/
theorem Attributed.extend (attributed : Attributed origin environment start sources before)
    (size : before.size ≤ after.size)
    (spans : ∀ source ∈ sources, after.span? source.1 = before.span? source.1)
    (named : origin.arena.MayDefineAt name place) (bound : node.index < after.size)
    (span : after.span? node = origin.spans.span? place)
    (fresh : ∀ source ∈ sources, source.2 ≠ place)
    (entries : ∀ entry ∈ after.scopes.entries,
      entry = (name, node) ∨ entry ∈ before.scopes.entries)
    (reported : ∃ repeated, repeated ⊆ sources ++ [(node, place)] ∧
      Tallied origin environment repeated start after) :
    Attributed origin environment start (sources ++ [(node, place)]) after where
  places := by
    rw [List.map_append, List.nodup_append]
    refine ⟨attributed.places, List.nodup_singleton _, ?_⟩
    rintro other held _ isPlace rfl
    cases List.mem_singleton.mp isPlace
    rcases List.mem_map.mp held with ⟨source, member, same⟩
    exact fresh source member same
  bound source member := by
    rcases List.mem_append.mp member with old | new
    · exact Nat.lt_of_lt_of_le (attributed.bound source old) size
    · cases List.mem_singleton.mp new
      exact bound
  span source member := by
    rcases List.mem_append.mp member with old | new
    · exact (spans source old).trans (attributed.span source old)
    · cases List.mem_singleton.mp new
      exact span
  scopes entry member := by
    rcases entries entry member with rfl | old
    · exact ⟨place, List.mem_append_right _ (List.mem_singleton.mpr rfl), named⟩
    · rcases attributed.scopes entry old with ⟨found, held, called⟩
      exact ⟨found, List.mem_append_left _ held, called⟩
  reported := reported

/-- What is found of a name, visible or in a closed frame, has a place. -/
theorem Attributed.known (attributed : Attributed origin environment start sources before)
    (known : ((before.scopes.lookup name).map Binding.node).or (before.scopes.nested name) =
      some earlier) : ∃ place, (earlier, place) ∈ sources ∧ origin.arena.MayDefineAt name place := by
  have entry : (name, earlier) ∈ before.scopes.entries := by
    rcases Option.or_eq_some_iff.mp known with visible | ⟨-, held⟩
    · rcases Option.map_eq_some_iff.mp visible with ⟨binding, seen, rfl⟩
      exact Scopes.entry_of_lookup seen
    · exact Scopes.entry_of_nested held
  exact attributed.scopes _ entry

/-- A statement that holds no others. -/
theorem Attributed.effect (attributed : Attributed origin environment start sources before)
    (outlies : ∀ source ∈ sources, Outlies origin [node] source)
    (sound : Sound limit origin before) (work : Passed limit origin [node] before after)
    (constructed : origin.Constructed limit) (solid : node.index < origin.arena.size)
    (effect : NameEffect origin environment node before after) :
    ∃ added, Attributed origin environment start (sources ++ added) after ∧
      ∀ source ∈ added, Arises origin [node] source := by
  have leaves := work.leaves
  have spans : ∀ source ∈ sources, after.span? source.1 = before.span? source.1 :=
    fun source member =>
      leaves.span source.1 (attributed.bound source member) (outlies source member).1
  have fresh : ∀ {place}, origin.arena.Reachable node place → ∀ source ∈ sources,
      source.2 ≠ place := by
    rintro place inside source member rfl
    exact (outlies source member).2 (below_singleton.mpr inside)
  have old : ∀ {place}, origin.arena.Reachable node place → place.index < origin.arena.size :=
    fun inside => below_bounded constructed (by simpa using solid) (below_singleton.mpr inside)
  cases effect with
  | none same quiet =>
      refine ⟨[], ?_, nofun⟩
      rw [List.append_nil]
      exact attributed.beside outlies leaves same
  | @declared name declaring place type introduces unknown inside named new span scopes duplicates
      told =>
      refine ⟨[(declaring, place)], ?_, ?_⟩
      · rcases Option.isSome_iff_exists.mp ((constructed.recorded place).mpr (old inside)) with
          ⟨found, known⟩
        apply attributed.extend leaves.size spans named (work.sound.placed (span.trans known)).1
          span (fresh inside)
        · intro entry member
          rw [scopes] at member
          exact Scopes.entries_declare member
        · rcases attributed.reported with ⟨repeated, among, distinct, noted, reports⟩
          exact ⟨repeated, fun source member => List.mem_append_left _ (among member), distinct,
            duplicates.trans noted, told ▸ reports⟩
      · rw [List.forall_mem_singleton]
        refine ⟨?_, below_singleton.mpr inside⟩
        rcases new with rfl | new
        · exact .inl (below_singleton.mpr inside)
        · exact .inr (Nat.le_trans sound.size new)
  | @repeated name earlier place middle reported introduces known inside named approaches ran span
      scopes duplicates told =>
      refine ⟨[(place, place)], ?_, ?_⟩
      · rcases attributed.known known with ⟨was, among, called⟩
        have sourced : ∀ node ∈ [earlier, place], ∃ found,
            (node, found) ∈ sources ++ [(place, place)] ∧ origin.arena.MayDefineAt name found ∧
              middle.span? node = origin.spans.span? found := by
          rw [List.forall_mem_cons, List.forall_mem_singleton]
          constructor
          · refine ⟨was, List.mem_append_left _ among, called, ?_⟩
            have kept := approaches.others earlier (attributed.bound _ among) (outlies _ among).1
            exact kept.trans (attributed.span _ among)
          · exact ⟨place, List.mem_append_right _ (List.mem_singleton.mpr rfl), named,
              approaches.own⟩
        apply attributed.extend leaves.size spans named _ span (fresh inside)
        · intro entry member
          rcases scopes with same | ⟨type, same⟩
          · rw [same] at member
            exact .inr member
          · rw [same] at member
            exact Scopes.entries_declare member
        · rcases attributed.reported with ⟨repeated, held, tallied⟩
          rcases tallied.again approaches.names sourced ran with ⟨more, among, again⟩
          refine ⟨repeated ++ more, List.append_subset.mpr ⟨?_, among⟩, ?_⟩
          · exact fun source member => List.mem_append_left _ (held member)
          · refine ⟨again.distinct, duplicates.trans again.noted, ?_⟩
            rw [told]
            exact again.told
        · exact Nat.lt_of_lt_of_le (old inside) (Nat.le_trans sound.size leaves.size)
      · rw [List.forall_mem_singleton]
        exact ⟨.inl (below_singleton.mpr inside), below_singleton.mpr inside⟩

end Steps

/-- Nodes that declare names stay with their places, and those that are added arise from some
statements. -/
def Sourced (origin : SourceTree) (environment : Environment) (start : InferenceState)
    (nodes : List NodeId) (before after : InferenceState) : Prop :=
  ∀ sources, Attributed origin environment start sources before →
    (∀ source ∈ sources, Outlies origin nodes source) →
    ∃ added, Attributed origin environment start (sources ++ added) after ∧
      ∀ source ∈ added, Arises origin nodes source

/-- No name is declared and none is reported, but fewer may be visible. -/
structure Narrower (before after : InferenceState) : Prop where
  size : before.size ≤ after.size
  spans : after.tree.spans = before.tree.spans
  entries : after.scopes.entries ⊆ before.scopes.entries
  duplicates : after.duplicates = before.duplicates
  told : after.told = before.told

theorem Attributed.narrow {start before after : InferenceState} {sources : List (NodeId × NodeId)}
    (attributed : Attributed origin environment start sources before)
    (narrower : Narrower before after) : Attributed origin environment start sources after := by
  apply attributed.later narrower.size _ narrower.entries narrower.duplicates narrower.told
  intro source _
  unfold InferenceState.span?
  rw [narrower.spans]

theorem narrower_opened (state : InferenceState) : Narrower state (opened state) :=
  ⟨Nat.le_refl _, rfl, Scopes.entries_push, rfl, rfl⟩

theorem narrower_closed (state : InferenceState) (node : NodeId) (found : List NodeId) :
    Narrower state (closed state node found) :=
  ⟨Nat.le_of_eq (Arena.size_setKind _ _ _).symm, rfl, Scopes.entries_pop, rfl, rfl⟩

/-- The count of loops is no part of the names. -/
theorem narrower_counted (state : InferenceState) (depth : Nat) :
    Narrower state { state with loopDepth := depth } :=
  ⟨Nat.le_refl _, rfl, List.Subset.refl _, rfl, rfl⟩

namespace Sourced

variable {node : NodeId} {nodes other rest : List NodeId}
  {start before entered visited middle after : InferenceState}

theorem nil : Sourced origin environment start [] before before := by
  intro sources attributed _
  refine ⟨[], ?_, nofun⟩
  rw [List.append_nil]
  exact attributed

theorem weaken (sourced : Sourced origin environment start nodes before after)
    (covered : ∀ id, Below origin nodes id → Below origin other id) :
    Sourced origin environment start other before after := by
  intro sources attributed outlies
  rcases sourced sources attributed (fun source member => (outlies source member).weaken covered)
    with ⟨added, later, arises⟩
  exact ⟨added, later, fun source member => (arises source member).weaken covered⟩

theorem cons (constructed : origin.Constructed limit) (siblings : Siblings origin (node :: rest))
    (first : Sourced origin environment start [node] before middle)
    (second : Sourced origin environment start rest middle after) :
    Sourced origin environment start (node :: rest) before after := by
  intro sources attributed outlies
  have head : ∀ id, Below origin [node] id → Below origin (node :: rest) id :=
    fun id inside => below_cons.mpr (.inl inside)
  have tail : ∀ id, Below origin rest id → Below origin (node :: rest) id :=
    fun id inside => below_cons.mpr (.inr inside)
  rcases first sources attributed (fun source member => (outlies source member).weaken head) with
    ⟨added, between, arises⟩
  have apart : ∀ source ∈ sources ++ added, Outlies origin rest source := by
    intro source member
    rcases List.mem_append.mp member with old | new
    · exact (outlies source old).weaken tail
    · exact (arises source new).outlies constructed siblings
  rcases second (sources ++ added) between apart with ⟨more, later, also⟩
  refine ⟨added ++ more, ?_, ?_⟩
  · rw [← List.append_assoc]
    exact later
  · intro source member
    rcases List.mem_append.mp member with old | new
    · exact (arises source old).weaken head
    · exact (also source new).weaken tail

theorem inside (enter : Narrower before entered)
    (sourced : Sourced origin environment start nodes entered visited)
    (leave : Narrower visited after) : Sourced origin environment start nodes before after := by
  intro sources attributed outlies
  rcases sourced sources (attributed.narrow enter) outlies with ⟨added, later, arises⟩
  exact ⟨added, later.narrow leave, arises⟩

/-- A condition declares no names. -/
theorem behind (leaves : Leaves (Below origin other) before middle)
    (names : SameNames before middle)
    (sourced : Sourced origin environment start nodes middle after)
    (covered : ∀ id, Below origin other id → Below origin [node] id)
    (within : ∀ id, Below origin nodes id → Below origin [node] id) :
    Sourced origin environment start [node] before after := by
  intro sources attributed outlies
  have asked := attributed.beside
    (fun source member => (outlies source member).weaken covered) leaves names
  exact sourced.weaken within sources asked outlies

end Sourced

/-- All reports about the names of statements are of places in them, each of another one. -/
theorem Walk.sourced (constructed : origin.Constructed limit) {start before after : InferenceState}
    {nodes found : List NodeId} (walk : Walk limit origin environment nodes before found after)
    (siblings : Siblings origin nodes) : Sourced origin environment start nodes before after := by
  induction walk with
  | nil => exact .nil
  | leaf check known plain admits ready ran taken later ih =>
      apply Sourced.cons constructed siblings _ (ih siblings.tail)
      intro sources attributed outlies
      exact attributed.effect outlies ready.sound taken.work constructed (Arena.kind_bound known)
        (effect_of_leaf constructed known plain admits ready ran)
  | body known ready inside work later inner ih =>
      apply Sourced.cons constructed siblings _ (ih siblings.tail)
      have statements := inner (siblings_of_kind known (List.Sublist.refl _))
      apply Sourced.weaken _ (below_parts known (List.Subset.refl _))
      exact statements.inside (narrower_opened _) (narrower_closed _ _ _)
  | @condition node condition thenBody elseBody _ _ before first _ _ _ known ready asked askedWork
      thenWalk elseWalk work later thenPart elsePart ih =>
      apply Sourced.cons constructed siblings _ (ih siblings.tail)
      have blocks : Siblings origin (thenBody :: elseBody.toList) :=
        siblings_of_kind known (List.sublist_cons_self _ _)
      have bodies := Sourced.cons constructed blocks (thenPart blocks.head) (elsePart blocks.tail)
      apply bodies.behind askedWork.leaves (same_names_asked asked)
      · exact below_parts known (by simp [NodeKind.children])
      · exact below_parts known (by simp [NodeKind.children])
  | @loop node condition block _ _ before first second _ known ready asked askedWork inside work later
      inner ih =>
      apply Sourced.cons constructed siblings _ (ih siblings.tail)
      have visited := inner (siblings_of_kind known (List.sublist_cons_self _ _))
      have counted : Sourced origin environment start [block] first (shallower second) :=
        visited.inside (narrower_counted _ _) (narrower_counted _ _)
      apply counted.behind askedWork.leaves (same_names_asked asked)
      · exact below_parts known (by simp [NodeKind.children])
      · exact below_parts known (by simp [NodeKind.children])

end Inference

end ModuleLang
