import ModuleLang.Proofs.Coupled.Behind
import ModuleLang.Proofs.Coupled.Front
import ModuleLang.Proofs.Faithful.Module

/-!
Two files with a line feed between them. Up to the end of the first one the whole is read
as the first file is, and there the run goes on as the run over the second one does: with
the items that were found, nodes that have larger numbers, and everything further down.
-/

namespace ModuleLang

namespace ParserState

/-- The state behind the making of a root for some items. -/
def rooted (state : ParserState) (items : Parser.Items) : ParserState :=
  { state with
    tree := state.tree.grown (.root items.modules items.imports items.functions)
      (.reaching .start state.context.current.span.stop) }

/-- How a sequence is read: to its end, and then a root is made for the items. -/
structure Exhausts (sequence : TokenSequence) (fileName : String) (items : Parser.Items)
    (state : ParserState) : Prop where
  ran : (Parser.itemsFrom (initial sequence fileName).remaining ⟨[], [], []⟩).run
    (initial sequence fileName) = .ok items state
  root : Parser.root.run (initial sequence fileName) =
    .ok ⟨state.tree.arena.size⟩ (state.rooted items)
  ended : state.context.current.kind = .endOfFile
  follows : (initial sequence fileName).context.cursor.Follows state.context.cursor
  fileName : state.context.fileName = fileName
  recorded : ∀ id, (state.tree.spans.span? id).isSome ↔ id.index < state.tree.arena.size
  /-- Below each item there are only older nodes. -/
  forest : (state.rooted items).tree.arena.Forest
  /-- If nothing was reported, nothing was left open. -/
  closed : state.context.diagnostics = [] →
    Nesting.outermost.through state.context.cursor.behind = some .outermost

theorem exhausts_of_sound {limit : Position} {sequence : TokenSequence} {fileName : String}
    (sound : Sound limit (initial sequence fileName)) :
    ∃ items state, Exhausts sequence fileName items state := by
  have begun : (⟨[], [], []⟩ : Parser.Items).Told (initial sequence fileName)
      (initial sequence fileName) := ⟨[], [], .refl _, .nil _ _ _, .nil _, .refl _⟩
  rcases yields_iff.mp (Parser.yields_items_told (.refl sound) (Nat.le_refl _) begun) with
    ⟨items, state, ran, reached, ⟨order, kinds, fills, held, lists, passes⟩, ended⟩
  have constructed := reached.sound.constructed
  have made : Yields Parser.root (initial sequence fileName) fun node final =>
      node = ⟨state.tree.arena.size⟩ ∧ final = state.rooted items := by
    unfold Parser.root
    rw [yields_bind, Parser.yields_remaining, yields_bind]
    refine yields_iff.mpr ⟨items, state, ran, ?_⟩
    rw [yields_bind, Parser.yields_current, Parser.yields_on_tree]
    exact SourceTree.yields_create constructed ⟨rfl, rfl⟩
  rcases yields_iff.mp made with ⟨node, final, root, rfl, rfl⟩
  rcases yields_iff.mp (Parser.yields_root sound) with ⟨node, final, also, proper, -⟩
  rw [root] at also
  cases also
  refine ⟨items, state, ran, root, ended, reached.cursor, reached.fileName, constructed.recorded,
    proper.sound.constructed.forest, ?_⟩
  intro silent
  rw [passes.read sound.inside silent]
  exact lists.nested 0

section Rooted

variable {sequence : TokenSequence} {fileName : String} {items : Parser.Items}
  {state : ParserState}

theorem kind_rooted : (state.rooted items).tree.arena.kind? ⟨state.tree.arena.size⟩ =
    some (.root items.modules items.imports items.functions) := by
  unfold rooted
  rw [SourceTree.kind_grown, if_pos rfl]

theorem node_rooted {id : NodeId} (old : id.index < state.tree.arena.size) :
    (state.rooted items).tree.arena.node? id = state.tree.arena.node? id :=
  (Arena.node?_alloc state.tree.arena _ id).trans (if_neg (Nat.ne_of_lt old))

theorem span_rooted {id : NodeId} (old : id.index < state.tree.arena.size) :
    (state.rooted items).tree.spans.span? id = state.tree.spans.span? id := by
  unfold rooted
  rw [SourceTree.span_grown, if_neg (Nat.ne_of_lt old)]

/-- Whatever is below an item was there before the root. -/
theorem Exhausts.old (reads : Exhausts sequence fileName items state) {item node : NodeId}
    (inside : item ∈ (state.rooted items).tree.arena.children ⟨state.tree.arena.size⟩)
    (below : (state.rooted items).tree.arena.Reachable item node) :
    node.index < state.tree.arena.size :=
  Nat.lt_of_le_of_lt (reads.forest.index_le below) (reads.forest.below inside)

end Rooted

end ParserState

namespace ParsingContext

variable {rows : Nat} {first second whole : TokenSequence} {here there : ParsingContext}

/-- Where the first file ends, the whole goes on as the second file begins. -/
theorem Aligned.shifted (aligned : Aligned first whole here there)
    (joins : first.Joins rows second whole) (ended : here.skipLines.current.kind = .endOfFile)
    (silent : here.diagnostics = []) :
    Shifted rows first second whole (ofSequence second here.fileName).skipLines there.skipLines := by
  rcases aligned.lines_across joins ended with ⟨place, front, skipped⟩
  rw [skipped]
  have begins : (ofSequence second here.fileName).skipLines =
      ⟨⟨second, place⟩, [], here.fileName⟩ := by
    have inside : Cursor.Inside ⟨second, 0⟩ := second.size_pos
    exact congrArg (fun cursor => ParsingContext.mk cursor [] here.fileName)
      (Cursor.skip_while_of_stops inside front)
  rw [begins]
  cases aligned with
  | @intro _ _ reports others length fileName =>
      have none : others = [] := List.eq_nil_of_length_eq_zero (length.trans (congrArg _ silent))
      subst none
      exact .intro front.inside [] fileName

end ParsingContext

namespace SourceTree

/-- Behind the nodes of a tree there is room for those of another one. -/
theorem grafted_empty {base : SourceTree} (rows : Nat)
    (recorded : ∀ id, (base.spans.span? id).isSome ↔ id.index < base.arena.size) :
    Grafted rows base empty base := by
  have outside : ∀ id : NodeId, ¬ (id.raised base.arena.size).index < base.arena.size := fun _ =>
    Nat.not_lt.mpr (Nat.le_add_left _ _)
  refine ⟨(Nat.zero_add _).symm, ?_, ?_, fun _ _ => ⟨rfl, rfl⟩⟩
  · intro id
    have absent := outside id
    rw [← Arena.node_bound, Option.not_isSome_iff_eq_none] at absent
    exact absent
  · intro id
    have absent := outside id
    rw [← recorded, Option.not_isSome_iff_eq_none] at absent
    exact absent

end SourceTree

namespace Parser

open ParserState

variable {rows : Nat} {first second whole : TokenSequence} {fileName : String}
  {ahead behind all : Items} {one two three : ParserState}

theorem exhausts_balanced (reads : Exhausts first fileName ahead one)
    (joins : first.Joins rows second whole) (silent : one.context.diagnostics = []) :
    first.Balanced := by
  have follows := reads.follows
  have ended := reads.ended
  have closed := reads.closed silent
  rcases one with ⟨tree, ⟨⟨sequence, position⟩, reports, name⟩⟩
  obtain rfl : sequence = first := follows.sequence
  have last : position + 1 = sequence.size := joins.last_of_end follows.inside ended
  obtain rfl : position = sequence.size - 1 := by omega
  exact closed

/-- Where the first file ends, its items and its tree are found, nothing is reported, and
what is left is the second file. -/
theorem items_of_front (joins : first.Joins rows second whole) (indents : first.Indents)
    (begins : ∀ place, second.StopsAt TokenKind.isTrivia 0 place →
      (second.get place).kind ≠ .keyword .elseWord)
    (reads : Exhausts first fileName ahead one) (silent : one.context.diagnostics = [])
    (both : Exhausts whole fileName all three) :
    ∃ bound twin, twin.tree = one.tree ∧
      ParsingContext.Shifted rows first second whole
        (ParsingContext.ofSequence second fileName).skipLines twin.context.skipLines ∧
      (itemsFrom bound ahead).run twin = .ok all three := by
  let coupling := Coupling.front joins (exhausts_balanced reads joins silent) indents begins
  have aligned : ParsingContext.Aligned first whole (.ofSequence first fileName)
      (.ofSequence whole fileName) := .intro first.size_pos rfl fileName
  have readied : coupling.ready (initial first fileName).context.skipLines
        (initial whole fileName).context.skipLines ∨
      True ∧ coupling.apart (initial first fileName).context (initial whole fileName).context :=
    (aligned.ready_or_ended joins).imp_right fun ended => ⟨trivial, aligned, ended⟩
  have runs := together_items (initial first fileName).remaining (initial whole fileName).remaining
    ⟨[], [], []⟩ ⟨[], [], []⟩ rfl readied
  cases runs.met _ _ _ _ reads.ran both.ran with
  | both same trees ready ended =>
      have solid := ready.2
      rw [ended] at solid
      cases solid
  | lost lost => exact absurd silent lost.told
  | @parted state twin lenient trees apart moved bound ran =>
      subst moved
      have shifted := apart.1.shifted joins apart.2 silent
      have name : state.context.fileName = fileName := reads.fileName
      rw [name] at shifted
      have items : ∀ nodes : List NodeId, nodes.map (NodeId.raised 0) = nodes := List.map_id
      simp only [Items.onto, List.nil_append, items, coupling, Coupling.front] at ran
      exact ⟨bound, twin, trees, shifted, ran⟩

/-- A run that goes on with the second file, as the run over it alone. -/
theorem items_of_back (joins : first.Joins rows second whole) {bound : Nat}
    (recorded : ∀ id, (one.tree.spans.span? id).isSome ↔ id.index < one.tree.arena.size)
    (shifted : ParsingContext.Shifted rows first second whole
      (ParsingContext.ofSequence second fileName).skipLines one.context.skipLines)
    (also : Exhausts second fileName behind two)
    (ran : (itemsFrom bound ahead).run one = .ok all three) :
    all = ahead.onto behind one.tree.arena.size ∧
      SourceTree.Grafted rows one.tree two.tree three.tree ∧
      three.context.diagnostics = two.context.diagnostics.map (Diagnostic.lowered rows) := by
  let coupling := Coupling.behind one.tree joins
  have solid : (initial second fileName).context.skipLines.current.kind = .endOfFile ∨
      (initial second fileName).context.skipLines.current.kind.isSolid = true := by
    rw [or_iff_not_imp_left]
    exact ParsingContext.solid_behind_lines second.size_pos
  have readied : coupling.ready (initial second fileName).context.skipLines
      one.context.skipLines ∨ False ∧ False := .inl ⟨shifted, solid⟩
  have runs := together_items (initial second fileName).remaining bound ahead ⟨[], [], []⟩
    (SourceTree.grafted_empty rows recorded) readied
  have none : ahead.onto ⟨[], [], []⟩ one.tree.arena.size = ahead := by
    simp only [Items.onto, List.map_nil, List.append_nil]
  change Together _ (itemsFrom bound (ahead.onto ⟨[], [], []⟩ one.tree.arena.size)) _ _ _ at runs
  rw [none] at runs
  cases runs.met _ _ _ _ also.ran ran with
  | lost lost => exact lost.lenient.elim
  | parted lenient => exact lenient.elim
  | both same trees ready ended =>
      refine ⟨same, trees, ?_⟩
      rcases ready with ⟨shifted, -⟩
      generalize two.context = here, three.context = there at shifted
      cases shifted with
      | intro => rfl

/-- What is read of two files, one behind the other, if nothing of the first one is
reported. -/
theorem items_joined (joins : first.Joins rows second whole) (indents : first.Indents)
    (begins : ∀ place, second.StopsAt TokenKind.isTrivia 0 place →
      (second.get place).kind ≠ .keyword .elseWord)
    (reads : Exhausts first fileName ahead one) (silent : one.context.diagnostics = [])
    (also : Exhausts second fileName behind two) (both : Exhausts whole fileName all three) :
    all = ahead.onto behind one.tree.arena.size ∧
      SourceTree.Grafted rows one.tree two.tree three.tree ∧
      three.context.diagnostics = two.context.diagnostics.map (Diagnostic.lowered rows) := by
  rcases items_of_front joins indents begins reads silent both with
    ⟨bound, twin, trees, shifted, ran⟩
  have recorded := reads.recorded
  rw [← trees] at recorded ⊢
  exact items_of_back joins recorded shifted also ran

end Parser

/-- What a text begins with, behind its blanks. -/
theorem Tokenized.begins_of_text {text fileName : String} {unlike : TokenKind}
    (begins : ((ofText text fileName).tokens.map Token.kind).find? (fun kind => !kind.isTrivia) ≠
      some unlike) (solid : unlike.isTrivia = false) {place : Nat}
    (stops : (ofText text fileName).sequence.StopsAt TokenKind.isTrivia 0 place) :
    ((ofText text fileName).sequence.get place).kind ≠ unlike := by
  have kinds : ∀ {index}, index < (ofText text fileName).sequence.size →
      ((ofText text fileName).tokens.map Token.kind)[index]? =
        some ((ofText text fileName).sequence.get index).kind := by
    intro index bound
    have found := TokenSequence.get_of_list bound
    rw [tokens_of_text] at found
    rw [List.getElem?_map]
    exact congrArg (Option.map Token.kind) found
  intro same
  apply begins
  rw [List.find?_eq_some_iff_getElem, solid]
  have here := kinds stops.inside
  rw [same] at here
  rcases List.getElem?_eq_some_iff.mp here with ⟨bound, found⟩
  refine ⟨rfl, place, bound, found, ?_⟩
  intro index before
  have earlier := kinds (Nat.lt_trans before stops.inside)
  rcases List.getElem?_eq_some_iff.mp earlier with ⟨bound, found⟩
  rw [found, (stops.passed index (Nat.zero_le _) before).1]
  rfl

namespace ParsedModule

/-- Nothing of the text of a module is left when its root is made. -/
theorem of_text_exhausts (text fileName : String) : ∃ items state,
    ParserState.Exhausts (Tokenized.ofText text fileName).sequence fileName items state ∧
      ofText text fileName = .ok ⟨(state.rooted items).tree, ⟨state.tree.arena.size⟩,
        (Tokenized.ofText text fileName).diagnostics ++ state.context.diagnostics, fileName⟩ := by
  rcases ParserState.exhausts_of_sound (ParserState.sound_initial text fileName) with
    ⟨items, state, reads⟩
  refine ⟨items, state, reads, ?_⟩
  unfold ofText
  simp only [reads.root]
  rfl

/-- A module that has the items of one module and behind them those of another one, with
larger numbers and some rows further down. -/
structure Joined (rows : Nat) (first second whole : ParsedModule) : Prop where
  lists : ∃ modules imports functions modules' imports' functions' : List NodeId,
    first.tree.arena.kind? first.root = some (.root modules imports functions) ∧
    second.tree.arena.kind? second.root = some (.root modules' imports' functions') ∧
    whole.tree.arena.kind? whole.root = some (.root
      (modules ++ modules'.map (NodeId.raised first.root.index))
      (imports ++ imports'.map (NodeId.raised first.root.index))
      (functions ++ functions'.map (NodeId.raised first.root.index)))
  front : ∀ item ∈ first.tree.arena.children first.root, ∀ node,
    first.tree.arena.Reachable item node →
      whole.tree.arena.node? node = first.tree.arena.node? node ∧
      whole.tree.spans.span? node = first.tree.spans.span? node
  back : ∀ item ∈ second.tree.arena.children second.root, ∀ node,
    second.tree.arena.Reachable item node →
      whole.tree.arena.node? (node.raised first.root.index) =
        (second.tree.arena.node? node).map (Node.raised first.root.index) ∧
      whole.tree.spans.span? (node.raised first.root.index) =
        (second.tree.spans.span? node).map (Span.lowered rows)
  diagnostics : whole.diagnostics = second.diagnostics.map (Diagnostic.lowered rows)

/-- An import and a function with a clause that another one could follow. -/
def acceptedText : String :=
  "use m.n;\nfn int f(int a) \x7b\n  if (a < 1) return 2;\n\x7d"

/-- A function with a mistake, tokens that begin no item, and a definition of a module. -/
def brokenText : String := "// g\nfn int g() \x7b\n  return (1;\n\x7d\n) x\nmodule k;"

end ParsedModule

end ModuleLang
