import ModuleLang.Proofs.Faithful.Declaration
import ModuleLang.Proofs.Parsing.Declaration
import ModuleLang.Proofs.Token.Tiling

/-!
Nothing of a text is dropped in silence. If a text was read without a report, then its
words, literals, operators and keywords, in their order, are the marks of the nodes below
the root, in the order of the text, and every node has exactly the marks of its kind.
-/

namespace ModuleLang

namespace Arena

variable {arena : Arena} {node : NodeId} {items : List NodeId}
  {values : NodeId → List (NodeId × TokenKind)}

/-- Nodes that carry marks one after the other have places for each of them. -/
theorem places_of_carry_all {kinds : List TokenKind} (all : arena.CarryAll items kinds) :
    ∃ values : NodeId → List (NodeId × TokenKind),
      (∀ item ∈ items, arena.Places item (values item)) ∧
        (items.flatMap values).map Prod.snd = kinds := by
  rcases all with ⟨each, held, rfl⟩
  have placed : ∀ item, item ∈ items → ∃ marks, arena.Places item marks := by
    intro item member
    rcases List.mem_iff_getElem.mp member with ⟨index, bound, rfl⟩
    have bound' : index < each.length := held.length_eq ▸ bound
    have carries := held.get bound bound'
    rcases places_of_carries carries with ⟨marks, places, -⟩
    exact ⟨marks, places⟩
  choose! values places using placed
  refine ⟨values, places, ?_⟩
  induction held with
  | nil => rfl
  | @cons item kinds items each carries rest ih =>
      rcases places_of_carries carries with ⟨marks, placed, same⟩
      have own : values item = marks := (places item List.mem_cons_self).unique placed
      rw [List.flatMap_cons, List.map_append, List.flatten_cons, own, same,
        ih fun item member => places item (List.mem_cons_of_mem _ member)]

/-- A node below one of some disjoint trees has its own marks among theirs, and no other
ones. -/
theorem own_of_disjoint {root : NodeId} {kind : NodeKind NodeId} (forest : arena.Forest)
    (inside : ∀ item, item ∈ items ↔ item ∈ arena.children root) (distinct : items.Nodup)
    (places : ∀ item ∈ items, arena.Places item (values item))
    (below : arena.Reachable root node) (other : node ≠ root)
    (found : arena.kind? node = some kind) :
    ((items.flatMap values).filter fun mark => mark.1 = node).map Prod.snd = kind.ownMarks := by
  rcases reachable_cases below with same | ⟨item, child, path⟩
  · exact absurd same other
  · have member := (inside item).mpr child
    rcases List.append_of_mem member with ⟨left, right, split⟩
    have elsewhere : ∀ sibling ∈ left ++ right,
        (values sibling).filter (fun mark => mark.1 = node) = [] := by
      intro sibling also
      have different : sibling ≠ item := by
        rintro rfl
        rw [split, List.nodup_middle, List.nodup_cons] at distinct
        exact distinct.1 also
      have among : sibling ∈ items := by
        rw [split]
        rcases List.mem_append.mp also with also | also
        · exact List.mem_append_left _ also
        · exact List.mem_append_right _ (List.mem_cons_of_mem _ also)
      apply (places sibling among).absent
      intro through
      exact different (forest.siblings_disjoint ((inside sibling).mp among) child through path)
    rw [split, List.flatMap_append, List.flatMap_cons, List.filter_append, List.filter_append,
      List.filter_flatMap, List.filter_flatMap]
    rw [List.flatMap_eq_nil_iff.mpr fun sibling also =>
        elsewhere sibling (List.mem_append_left _ also),
      List.flatMap_eq_nil_iff.mpr fun sibling also =>
        elsewhere sibling (List.mem_append_right _ also),
      List.nil_append, List.append_nil]
    exact (places item member).own forest path found

/-- A mark that is placed in a tree is a mark of its node. -/
theorem owner_of_mark {root : NodeId} {marks : List (NodeId × TokenKind)} (forest : arena.Forest)
    (places : arena.Places root marks) {mark : NodeId × TokenKind} (member : mark ∈ marks) :
    arena.Reachable root mark.1 ∧ ∃ kind, arena.kind? mark.1 = some kind ∧
      mark.2 ∈ kind.ownMarks := by
  have below := places.reachable mark member
  rcases places.cases with ⟨rootKind, -, known, -, -⟩
  have bound : mark.1.index < arena.size :=
    Nat.lt_of_le_of_lt (forest.index_le below) (kind_bound known)
  rcases kind_exists bound with ⟨kind, found⟩
  refine ⟨below, kind, found, ?_⟩
  rw [← places.own forest below found]
  exact List.mem_map.mpr ⟨mark, List.mem_filter.mpr ⟨member, decide_eq_true rfl⟩, rfl⟩

end Arena

namespace Cursor

/-- At the end of the file everything is behind the cursor. -/
theorem behind_at_end {cursor : Cursor} {proper : List Token} {closing : Span}
    (tokens : cursor.sequence.tokens.toList = proper ++ [⟨.endOfFile, closing⟩])
    (going : ∀ token ∈ proper, token.kind ≠ .endOfFile) (inside : cursor.Inside)
    (ended : cursor.current.kind = .endOfFile) :
    cursor.behind = (cursor.sequence.tokens.toList.map Token.kind).filter TokenKind.isSolid := by
  have bound : cursor.position < cursor.sequence.tokens.toList.length := inside
  have current : cursor.current = cursor.sequence.tokens.toList[cursor.position] := by
    rw [current, TokenSequence.get_of_bound inside]
    rfl
  have last : cursor.position = proper.length := by
    have within : cursor.position < proper.length + 1 := by simpa [tokens] using bound
    by_contra early
    have early : cursor.position < proper.length := by omega
    have among : cursor.current ∈ proper := by
      rw [current]
      simp only [tokens]
      rw [List.getElem_append_left early]
      exact List.getElem_mem early
    exact going _ among ended
  unfold behind
  rw [last, tokens, List.take_left, List.map_append, List.filter_append]
  exact (List.append_nil _).symm

end Cursor

namespace Parser

open ParserState Nesting

variable {limit : Position}

/-- The items of a file, in the order of the text, were spelt with all of it. -/
theorem yields_root_told {origin : ParserState} (sound : origin.Sound limit) :
    Yields root origin fun node final => ∃ modules imports functions items kinds,
      final.tree.Constructed limit ∧
      final.tree.arena.kind? node = some (.root modules imports functions) ∧
      items.Perm (modules ++ imports ++ functions) ∧ items.Pairwise final.tree.Precedes ∧
      Arena.Lists Neutral final.tree.arena items kinds ∧ origin.Passes kinds final ∧
      final.context.current.kind = .endOfFile := by
  have proper : Yields root origin fun _ final => final.tree.Constructed limit :=
    (yields_root sound).weaken fun _ _ met => met.1.sound.constructed
  have told : Yields root origin fun node final => ∃ modules imports functions items kinds,
      final.tree.arena.kind? node = some (.root modules imports functions) ∧
      items.Perm (modules ++ imports ++ functions) ∧ items.Pairwise final.tree.Precedes ∧
      Arena.Lists Neutral final.tree.arena items kinds ∧ origin.Passes kinds final ∧
      final.context.current.kind = .endOfFile := by
    unfold root
    rw [yields_bind, yields_remaining, yields_bind]
    have begun : (⟨[], [], []⟩ : Items).Told origin origin :=
      ⟨[], [], .refl _, .nil _ _ _, .nil _, .refl _⟩
    apply (yields_items_told (.refl sound) (Nat.le_refl _) begun).weaken
    rintro ⟨modules, imports, functions⟩ state ⟨reached, told, ended⟩
    rcases told with ⟨order, kinds, fills, held, lists, passes⟩
    rw [yields_bind, yields_current, yields_on_tree]
    apply SourceTree.yields_create reached.sound.constructed
    have nodes : (order.map Prod.snd).Perm (modules ++ imports ++ functions) := by
      have same := fills.map Prod.snd
      rw [Items.slots, NodeKind.slots_are_children] at same
      exact same
    have keeps : ∀ id kind, state.tree.arena.kind? id = some kind →
        (state.tree.grown (.root modules imports functions)
          (.reaching .start state.context.current.span.stop)).arena.kind? id = some kind := by
      intro id kind found
      rw [SourceTree.kind_grown, if_neg (Nat.ne_of_lt (Arena.kind_bound found))]
      exact found
    refine ⟨modules, imports, functions, order.map Prod.snd, kinds, ?_, nodes, ?_,
      lists.later keeps, ?_, ended⟩
    · rw [SourceTree.kind_grown, if_pos rfl]
    · rw [List.pairwise_map]
      apply List.Pairwise.imp_of_mem _ held.apart
      intro first second left right precedes
      exact precedes.grown (held.bound left) (held.bound right)
    · exact ⟨⟨passes.goes.cursor, passes.goes.diagnostics, passes.goes.keeps.trans keeps⟩,
        passes.read⟩
  apply (proper.and told).weaken
  rintro node final ⟨built, modules, imports, functions, items, kinds, met⟩
  exact ⟨modules, imports, functions, items, kinds, built, met⟩

end Parser

/-- The words, literals, operators and keywords of a text, in order. -/
def Tokenized.marks (read : Tokenized) : List TokenKind :=
  (read.tokens.map Token.kind).filter TokenKind.isMark

namespace ParsedModule

/-- Some marks, each with the node that has it, are what the tree of a module has of its
text. -/
structure Tells (parsed : ParsedModule) (marks : List (NodeId × TokenKind)) : Prop where
  /-- They are the marks of the items, one behind the other in the order of the text. -/
  listed : ∃ (modules imports functions items : List NodeId)
      (each : List (List (NodeId × TokenKind))),
    parsed.tree.arena.kind? parsed.root = some (.root modules imports functions) ∧
    items.Perm (modules ++ imports ++ functions) ∧ items.Pairwise parsed.tree.Precedes ∧
    items.mapM parsed.tree.arena.marks? = some each ∧ each.flatten = marks
  /-- Whatever has a mark is in the tree, and is of a kind that has it. -/
  owned : ∀ mark ∈ marks, parsed.tree.arena.Reachable parsed.root mark.1 ∧
    ∃ kind, parsed.tree.arena.kind? mark.1 = some kind ∧ mark.2 ∈ kind.ownMarks
  /-- Whatever is in the tree has the marks of its kind, and no others. -/
  complete : ∀ node kind, parsed.tree.arena.Reachable parsed.root node →
    parsed.tree.arena.kind? node = some kind →
    (marks.filter fun mark => mark.1 = node).map Prod.snd = kind.ownMarks

/-- Items that carry some marks, as the children of the root, tell these marks. -/
theorem tells_of_items {parsed : ParsedModule} {limit : Position}
    {modules imports functions items : List NodeId} {kinds : List TokenKind}
    (constructed : parsed.tree.Constructed limit)
    (found : parsed.tree.arena.kind? parsed.root = some (.root modules imports functions))
    (fills : items.Perm (modules ++ imports ++ functions))
    (inOrder : items.Pairwise parsed.tree.Precedes)
    (all : parsed.tree.arena.CarryAll items kinds) :
    ∃ marks, parsed.Tells marks ∧ marks.map Prod.snd = kinds := by
  have forest := constructed.forest
  have children : parsed.tree.arena.children parsed.root = modules ++ imports ++ functions :=
    Arena.children_of_kind found
  have inside : ∀ item, item ∈ items ↔ item ∈ parsed.tree.arena.children parsed.root := by
    intro item
    rw [children]
    exact fills.mem_iff
  have distinct : items.Nodup := fills.nodup_iff.mpr (children ▸ forest.distinct parsed.root)
  rcases Arena.places_of_carry_all all with ⟨values, places, same⟩
  have collected : items.mapM parsed.tree.arena.marks? = some (items.map values) :=
    NodeKind.list_of_some fun item member => (places item member).found
  refine ⟨items.flatMap values, ⟨?_, ?_, ?_⟩, same⟩
  · exact ⟨_, _, _, items, _, found, fills, inOrder, collected, rfl⟩
  · intro mark member
    rcases List.mem_flatMap.mp member with ⟨item, among, member⟩
    rcases Arena.owner_of_mark forest (places item among) member with ⟨below, owner⟩
    exact ⟨.below_child ((inside item).mp among) below, owner⟩
  · intro node kind below known
    by_cases top : node = parsed.root
    · -- The root has no marks itself, and no item is above it.
      subst top
      rw [found] at known
      cases known
      have none : (items.flatMap values).filter (fun mark => mark.1 = parsed.root) = [] := by
        rw [List.filter_flatMap, List.flatMap_eq_nil_iff]
        intro item member
        exact (places item member).absent
          (forest.parent_not_below ((inside item).mp member))
      rw [none, NodeKind.ownMarks, NodeKind.pieces, List.flatMap_map]
      exact (List.flatMap_eq_nil_iff.mpr fun _ _ => rfl).symm
    · exact Arena.own_of_disjoint forest inside distinct places below top known

/-- Nothing of a text that was read without a report is dropped: the words, literals,
operators and keywords of the text, in order, are the marks of the tree. -/
theorem of_text_tells (text fileName : String) : ∃ parsed, ofText text fileName = .ok parsed ∧
    (parsed.diagnostics = [] →
      ∃ marks, parsed.Tells marks ∧ marks.map Prod.snd = (Tokenized.ofText text fileName).marks) := by
  have sound := ParserState.sound_initial text fileName
  rcases yields_iff.mp (Parser.yields_root_told sound) with
    ⟨root, final, ran, modules, imports, functions, items, kinds, constructed, found, fills,
      inOrder, lists, passes, ended⟩
  let parsed : ParsedModule := ⟨final.tree, root, (Tokenized.ofText text fileName).diagnostics ++
    final.context.diagnostics, fileName⟩
  refine ⟨parsed, ?_, ?_⟩
  · unfold ofText
    simp only [ran]
    rfl
  · intro silent
    have quiet : final.context.diagnostics = [] := (List.append_eq_nil_iff.mp silent).2
    have follows := passes.goes.cursor sound.inside
    rcases Tokenized.closed_of_text text fileName with ⟨proper, tokens, going⟩
    have sequence : final.context.cursor.sequence = (Tokenized.ofText text fileName).sequence :=
      follows.sequence
    have whole : kinds =
        (((Tokenized.ofText text fileName).sequence.tokens.toList.map Token.kind).filter
          TokenKind.isSolid) := by
      have read := passes.read sound.inside quiet
      rw [Cursor.behind_at_end (sequence ▸ tokens) going follows.inside ended, sequence] at read
      exact read.symm
    have tells : ∃ marks, parsed.Tells marks ∧ marks.map Prod.snd = kinds.filter TokenKind.isMark :=
      tells_of_items constructed found fills inOrder lists.carries
    rcases tells with ⟨marks, tells, same⟩
    refine ⟨marks, tells, ?_⟩
    rw [same, whole, Tokenized.tokens_of_text, List.filter_filter]
    apply List.filter_congr
    intro kind _
    cases mark : kind.isMark with
    | true => exact TokenKind.solid_of_mark mark
    | false => rfl

/-- A module with blanks and comments, groups, and a clause behind `else`. -/
def spokenText : String :=
  "use m.n;\nfn int f(int[] a) \x7b\n  // the first\n  if ((a[0] + 1) * 2 < 3) return a[0];" ++
    " else x -= 4;\n  return 0;\n\x7d\n"

theorem of_text_tells_sample : ∃ parsed, ofText spokenText "m.plp" = .ok parsed ∧
    parsed.diagnostics = [] ∧ ∃ marks, parsed.Tells marks ∧
      marks.map Prod.snd = (Tokenized.ofText spokenText "m.plp").marks ∧ marks.length = 26 := by
  rcases of_text_tells spokenText "m.plp" with ⟨parsed, ran, tells⟩
  have silent : (ofText spokenText "m.plp").toOption.map ParsedModule.diagnostics = some [] := by
    decide +kernel
  have count : (Tokenized.ofText spokenText "m.plp").marks.length = 26 := by decide +kernel
  rw [ran] at silent
  rcases tells (Option.some.inj silent) with ⟨marks, told, same⟩
  refine ⟨parsed, ran, Option.some.inj silent, marks, told, same, ?_⟩
  rw [← List.length_map Prod.snd, same, count]

end ParsedModule

end ModuleLang
