import ModuleLang.Proofs.Faithful.Passing
import ModuleLang.Proofs.Parsing.Declaration

/-!
Names of functions. The header of a function is first tried as a result type and a name.
Where it is none, it is a name alone, and one of a built-in type is refused: that is
reported, and the function is dropped. The first form takes whatever name stands in front
of the parameters, so what is proved about the names in a tree leaves out functions that
were written with a result type.
-/

namespace ModuleLang

/-- A function whose name is not that of a built-in type, unless it has a result type. -/
def Arena.ProperlyNamed (arena : Arena) (function : NodeId) : Prop :=
  ∃ result name parameters body,
    arena.kind? function = some (.function result name parameters body) ∧
      (result = none → Ty.builtin? name = none)

/-- Only a root has functions in its slots. -/
theorem NodeKind.root_of_function_slot {slot : Type} {kind : NodeKind slot} {child : slot}
    (inside : (Category.function, child) ∈ kind.slots) :
    ∃ modules imports functions, kind = .root modules imports functions ∧ child ∈ functions := by
  cases kind with
  | root modules imports functions =>
      exact ⟨modules, imports, functions, rfl, by simpa [slots] using inside⟩
  | assign operator => cases operator <;> simp [slots, AssignOperator.side] at inside
  | _ => simp [slots] at inside

namespace SourceTree

theorem Extends.properly_named {before after : SourceTree} {function : NodeId}
    (extends' : before.Extends after) (named : before.arena.ProperlyNamed function) :
    after.arena.ProperlyNamed function := by
  obtain ⟨result, name, parameters, body, known, proper⟩ := named
  exact ⟨result, name, parameters, body, extends'.kind known, proper⟩

namespace Constructed

variable {limit : Position} {tree : SourceTree} {root node : NodeId}
  {modules imports functions : List NodeId}

/-- No slot takes a root. -/
theorem root_of_reachable {kind : NodeKind NodeId} (constructed : tree.Constructed limit)
    (below : tree.arena.Reachable root node) (found : tree.arena.kind? node = some kind)
    (whole : kind.isRoot = true) : node = root := by
  obtain same | ⟨parent, -, inside⟩ := Relation.ReflTransGen.cases_tail below
  · exact same
  · obtain ⟨above, known, child⟩ := Arena.kind_of_child inside
    obtain ⟨category, slot⟩ := NodeKind.child_has_slot child
    obtain ⟨other, also, admits⟩ := constructed.admitted known _ slot
    cases found.symm.trans also
    cases kind with
    | root => cases category <;> cases admits
    | _ => cases whole

/-- Functions stand nowhere but in the root. -/
theorem function_of_root {result : Option NodeId} {name : String} {parameters : List NodeId}
    {body : NodeId} (constructed : tree.Constructed limit)
    (whole : tree.arena.kind? root = some (.root modules imports functions))
    (below : tree.arena.Reachable root node)
    (found : tree.arena.kind? node = some (.function result name parameters body)) :
    node ∈ functions := by
  obtain same | ⟨parent, above, inside⟩ := Relation.ReflTransGen.cases_tail below
  · rw [same, whole] at found
    cases found
  · obtain ⟨kind, known, child⟩ := Arena.kind_of_child inside
    obtain ⟨category, slot⟩ := NodeKind.child_has_slot child
    obtain ⟨other, also, admits⟩ := constructed.admitted known _ slot
    cases found.symm.trans also
    have sort : category = .function := by cases category <;> first | rfl | cases admits
    subst sort
    obtain ⟨modules', imports', functions', rfl, member⟩ := NodeKind.root_of_function_slot slot
    cases constructed.root_of_reachable above known rfl
    cases whole.symm.trans known
    exact member

end Constructed

end SourceTree

namespace Parser

open ParserState

variable {limit : Position} {start : ParserState}

/-- How a header is read where its function has moved past the keyword. With a result type its
name may be any word; without one it is a word that names no built-in type, and where no such
word stands the header is refused with the code PRS1006. -/
inductive HeaderRead (start : ParserState) :
    Option (Option NodeId × String) → ParserState → Prop
  | typed {type : NodeId} {name : String} {final : ParserState}
      (ran : (attempt typedHeader).run start = .ok (some (type, name)) final) :
      HeaderRead start (some (some type, name)) final
  | plain {name : String} {tried : ParserState}
      (ran : (attempt typedHeader).run start = .ok none tried)
      (word : start.context.current.kind.word? = some name)
      (proper : Ty.builtin? name = none) :
      HeaderRead start (some (none, name)) { tried with context := start.context.advance }
  | refused {tried : ParserState}
      (ran : (attempt typedHeader).run start = .ok none tried)
      (improper : ∀ name, start.context.current.kind.word? = some name →
        (Ty.builtin? name).isSome = true) :
      HeaderRead start none
        { tried with context := start.context.reportHere .expectedFunctionName }

theorem HeaderRead.proper {result : Option NodeId} {name : String} {final : ParserState}
    (header : HeaderRead start (some (result, name)) final) :
    result = none → Ty.builtin? name = none := by
  intro absent
  cases header with
  | typed _ => cases absent
  | plain _ _ proper => exact proper

theorem yields_header_read (sound : start.Sound limit) :
    Yields header start (HeaderRead start) := by
  obtain ⟨result, tried, ran, -, dropped⟩ :=
    yields_iff.mp (parsed_attempt sound (parses_typed_header (sound_fork sound)))
  unfold header
  rw [yields_bind]
  refine yields_iff.mpr ⟨result, tried, ran, ?_⟩
  cases result with
  | some found => exact .typed ran
  | none =>
      have same := dropped rfl
      obtain ⟨tree, context⟩ := tried
      cases same
      unfold plainHeader
      rw [yields_bind, yields_bind, yields_current]
      split
      · rename_i name word
        split
        · rename_i proper
          unfold advance
          rw [yields_bind, yields_move]
          exact .plain ran word (Option.isNone_iff_eq_none.mp proper)
        · rename_i builtin
          unfold reportHere
          rw [yields_bind, yields_move]
          refine .refused ran fun other found => ?_
          cases word.symm.trans found
          exact Option.isSome_iff_ne_none.mpr fun absent => builtin (by rw [absent]; rfl)
      · rename_i unnamed
        unfold reportHere
        rw [yields_bind, yields_move]
        refine .refused ran fun other found => ?_
        rw [unnamed] at found
        cases found

/-- What the loop over items gets of a function. One whose header is refused is dropped, and
what follows is passed over up to the next item without a further report. -/
inductive FunctionTaken (start : ParserState) : List NodeId → ParserState → Prop
  | dropped {after : ParserState} (header : HeaderRead start none after) :
      FunctionTaken start [] { after with context := after.context.skipUntil startsItem }
  | named {result : Option NodeId} {name : String} {after final : ParserState}
      {found : List NodeId} (header : HeaderRead start (some (result, name)) after)
      (made : ∀ node ∈ found, ∃ parameters body,
        final.tree.arena.kind? node = some (.function result name parameters body)) :
      FunctionTaken start found final

theorem FunctionTaken.properly_named {found : List NodeId} {final : ParserState}
    (taken : FunctionTaken start found final) :
    ∀ node ∈ found, final.tree.arena.ProperlyNamed node := by
  intro node member
  cases taken with
  | dropped _ => cases member
  | named header made =>
      obtain ⟨parameters, body, kind⟩ := made node member
      exact ⟨_, _, parameters, body, kind, header.proper⟩

/-- A function ends where its header is refused, and otherwise has the name of its header. -/
theorem ensures_function_named (sound : start.Sound limit) :
    Ensures function start fun node final =>
      (HeaderRead { start with context := start.context.advance } none final ∧ node = none) ∨
      ∃ result name after,
        HeaderRead { start with context := start.context.advance } (some (result, name)) after ∧
        ∀ made ∈ node, ∃ parameters body,
          final.tree.arena.kind? made = some (.function result name parameters body) := by
  have moved : start.Reaches limit { start with context := start.context.advance } :=
    reaches_moved sound (Cursor.follows_advance_inline sound.inside)
  unfold function advance
  rw [ensures_bind, ensures_current, ensures_bind, ensures_move, ensures_bind]
  refine (yields_header_read moved.sound).ensures.weaken fun found after header => ?_
  cases found with
  | none => exact (ensures_pure _ _ _).mpr (.inl ⟨header, rfl⟩)
  | some found =>
      obtain ⟨result, name⟩ := found
      -- Whatever becomes of the parameters and the body, the name is that of the header.
      rw [ensures_bind]
      constructor
      intro parameters listed _
      cases parameters with
      | none => exact (ensures_pure _ _ _).mpr (.inr ⟨result, name, after, header, by simp⟩)
      | some parameters =>
          rw [ensures_bind]
          constructor
          intro body read _
          cases body with
          | none => exact (ensures_pure _ _ _).mpr (.inr ⟨result, name, after, header, by simp⟩)
          | some body =>
              rw [ensures_bind]
              refine ensures_finish fun node final _ kind => ?_
              refine (ensures_pure _ _ _).mpr (.inr ⟨result, name, after, header, ?_⟩)
              intro made same
              cases same
              exact ⟨parameters, body, kind⟩

theorem yields_function_taken (sound : start.Sound limit)
    (keyword : start.context.current.kind = .keyword .fnWord) :
    Yields (item function) start fun found final =>
      Round limit .function start found final ∧
        FunctionTaken { start with context := start.context.advance } found final := by
  have going : start.context.current.kind ≠ .endOfFile := by simp [keyword]
  refine (yields_item going (parses_function sound keyword)).ensured ?_
  unfold item
  rw [ensures_bind, ensures_context, ensures_bind]
  refine (ensures_function_named sound).weaken ?_
  rintro node after (⟨refused, rfl⟩ | ⟨result, name, middle, header, made⟩)
  · -- The keyword was moved past, so recovery only looks for the next item.
    have ahead := Cursor.advance_inline_strict sound.inside (beq_false_of_ne going)
    have place : after.context.cursor = start.context.cursor.advanceInline := by
      cases refused with
      | refused => rfl
    unfold recover
    rw [ensures_bind, ensures_bind, ensures_context]
    split
    · rename_i stuck
      rw [place] at stuck
      exact absurd (eq_of_beq stuck) (Nat.ne_of_gt ahead)
    · exact (ensures_move _ _ _).mpr ((ensures_pure _ _ _).mpr (.dropped refused))
  · cases node with
    | some node =>
        refine (ensures_pure _ _ _).mpr (.named header fun other member => ?_)
        cases List.mem_singleton.mp member
        exact made node rfl
    | none =>
        rw [ensures_bind]
        constructor
        intro _ final _
        exact (ensures_pure _ _ _).mpr (.named header fun other member => by cases member)

/-- The loop over items keeps the names of the functions that it collects. -/
theorem yields_items_named {budget : Nat} (items : Items) {start : ParserState}
    (sound : start.Sound limit) (enough : start.remaining ≤ budget)
    (named : ∀ function ∈ items.functions, start.tree.arena.ProperlyNamed function) :
    Yields (itemsFrom budget items) start fun all final =>
      ∀ function ∈ all.functions, final.tree.arena.ProperlyNamed function := by
  induction budget generalizing start items with
  | zero =>
      have positive := remaining_pos sound
      omega
  | succ budget ih =>
      unfold itemsFrom
      rw [yields_bind]
      refine yields_skip_lines sound fun state skipped => ?_
      have enough := Nat.le_trans (remaining_mono skipped) enough
      have sound := skipped.sound
      -- Every round moves past a token, and later nodes leave the functions as they are.
      have again : ∀ {next : ParserState} (modules imports found : List NodeId),
          state.Reaches limit next → state.position < next.position →
          (∀ function ∈ found, next.tree.arena.ProperlyNamed function) →
          Yields (itemsFrom budget ⟨modules, imports, items.functions ++ found⟩) next
            fun all final => ∀ function ∈ all.functions,
              final.tree.arena.ProperlyNamed function := by
        intro next modules imports found moved ahead fresh
        refine ih _ moved.sound (remaining_of_reaches moved ahead enough) fun function member => ?_
        obtain old | new := List.mem_append.mp member
        · exact (skipped.trans moved).tree.properly_named (named function old)
        · exact fresh function new
      have others : ∀ {next : ParserState} {modules imports : List NodeId},
          state.Reaches limit next → state.position < next.position →
          Yields (itemsFrom budget ⟨modules, imports, items.functions⟩) next
            fun all final => ∀ function ∈ all.functions,
              final.tree.arena.ProperlyNamed function := by
        intro next modules imports moved ahead
        have rest := again modules imports [] moved ahead (by simp)
        rw [List.append_nil] at rest
        exact rest
      rw [yields_bind, yields_current]
      split
      · intro function member
        exact skipped.tree.properly_named (named function member)
      · rename_i kind
        rw [yields_bind]
        refine yields_advance sound fun next moved ahead _ _ => ?_
        exact others moved (ahead (by simp [kind]))
      · rename_i kind
        rw [yields_bind]
        refine (yields_item (by simp [kind]) (parses_path_item .moduleDef .moduleDef sound
          (by simp [kind]) (by simp [Token.isTrivia, kind, TokenKind.isTrivia]) (fun _ => rfl)
          fun _ => rfl)).weaken fun found next round => ?_
        exact others round.reached round.ahead
      · rename_i kind
        rw [yields_bind]
        refine (yields_item (by simp [kind]) (parses_path_item .useDef .useDef sound
          (by simp [kind]) (by simp [Token.isTrivia, kind, TokenKind.isTrivia]) (fun _ => rfl)
          fun _ => rfl)).weaken fun found next round => ?_
        exact others round.reached round.ahead
      · rename_i kind
        rw [yields_bind]
        refine (yields_function_taken sound kind).weaken ?_
        rintro found next ⟨round, taken⟩
        exact again _ _ _ round.reached round.ahead taken.properly_named
      · rename_i notEnd _ notModule notUse notFunction
        rw [yields_bind]
        exact yields_skip_run sound (by simp_all [startsItem])
          fun next moved ahead _ _ => others moved ahead

theorem ensures_root_named (sound : start.Sound limit) :
    Ensures root start fun node final => ∃ modules imports functions,
      final.tree.arena.kind? node = some (.root modules imports functions) ∧
      ∀ function ∈ functions, final.tree.arena.ProperlyNamed function := by
  unfold root
  rw [ensures_bind, ensures_remaining, ensures_bind]
  have named := yields_items_named ⟨[], [], []⟩ sound (Nat.le_refl _) (by simp)
  refine named.ensures.weaken fun items state named => ?_
  rw [ensures_bind, ensures_current]
  refine ensures_create fun node final passes kind => ⟨_, _, _, kind, fun function member => ?_⟩
  obtain ⟨result, name, parameters, body, known, proper⟩ := named function member
  exact ⟨result, name, parameters, body, passes.goes.keeps _ _ known, proper⟩

end Parser

namespace ParsedModule

/-- In the tree of a parsed text no function without a result type is named like a built-in
type. Wherever a function begins, its header is read in one of the two forms, or it is refused
where neither the first form fits nor a word that names no built-in type stands; then that is
the one report about it, and no function comes of it. -/
theorem of_text_function_names (text fileName : String) :
    (∃ parsed, ofText text fileName = .ok parsed ∧
      ∀ node result name parameters body, parsed.tree.arena.Reachable parsed.root node →
        parsed.tree.arena.kind? node = some (.function result name parameters body) →
        (Ty.builtin? name).isSome = true → result.isSome = true) ∧
    ∀ state, ParserState.Reaches (Position.ending text.toList)
        (.initial (Tokenized.ofText text fileName).sequence fileName) state →
      state.context.current.kind = .keyword .fnWord →
      Yields (Parser.item Parser.function) state
        (Parser.FunctionTaken { state with context := state.context.advance }) := by
  have sound := ParserState.sound_initial text fileName
  constructor
  · obtain ⟨root, final, ran, ⟨reached, -⟩, modules, imports, functions, whole, named⟩ :=
      yields_iff.mp ((Parser.yields_root sound).ensured (Parser.ensures_root_named sound))
    refine ⟨⟨final.tree, root, (Tokenized.ofText text fileName).diagnostics ++
      final.context.diagnostics, fileName⟩, ?_, ?_⟩
    · unfold ofText
      simp only [ran]
    · intro node result name parameters body below found builtin
      have member := reached.sound.constructed.function_of_root whole below found
      obtain ⟨_, _, _, _, known, proper⟩ := named node member
      cases found.symm.trans known
      by_contra absent
      rw [proper (Option.not_isSome_iff_eq_none.mp absent)] at builtin
      cases builtin
  · intro state reached keyword
    exact (Parser.yields_function_taken reached.sound keyword).weaken fun _ _ => And.right

/-- A text whose only function has nothing but the name of a built-in type. -/
def refusedText : String := "fn int() \x7b\x7d"

theorem of_text_function_names_refused :
    ((Tokenized.ofText refusedText "m.plp").sequence.get 0).kind = .keyword .fnWord ∧
    Yields (Parser.item Parser.function)
      (.initial (Tokenized.ofText refusedText "m.plp").sequence "m.plp")
      (Parser.FunctionTaken ⟨.empty,
        (ParsingContext.ofSequence (Tokenized.ofText refusedText "m.plp").sequence
          "m.plp").advance⟩) := by
  have first : ((Tokenized.ofText refusedText "m.plp").sequence.get 0).kind =
      .keyword .fnWord := by decide +kernel
  exact ⟨first, (of_text_function_names refusedText "m.plp").2 _
    (.refl (ParserState.sound_initial refusedText "m.plp")) first⟩

example : (ofText refusedText "m.plp").toOption.map (fun parsed =>
    (parsed.diagnostics.map fun found => found.kind.code,
      parsed.tree.arena.children parsed.root)) = some (["PRS1006"], []) := by
  decide +kernel

/-- In front of its parameters a name is not looked at if there is a result type. -/
theorem builtin_name_kept :
    ∃ parsed node result parameters body, ofText "fn int int() \x7b\x7d" "m.plp" = .ok parsed ∧
      parsed.diagnostics = [] ∧ parsed.tree.arena.Reachable parsed.root node ∧
      parsed.tree.arena.kind? node = some (.function (some result) "int" parameters body) ∧
      (Ty.builtin? "int").isSome = true := by
  obtain ⟨parsed, wasParsed, -, -⟩ := of_text_proper "fn int int() \x7b\x7d" "m.plp"
  have facts : (ofText "fn int int() \x7b\x7d" "m.plp").toOption.any (fun parsed =>
      parsed.diagnostics.isEmpty &&
        (parsed.tree.arena.children parsed.root).contains ⟨2⟩ &&
        parsed.tree.arena.kind? ⟨2⟩ == some (.function (some ⟨0⟩) "int" [] ⟨1⟩)) = true := by
    decide +kernel
  rw [wasParsed, Except.toOption, Option.any_some] at facts
  simp only [Bool.and_eq_true, List.isEmpty_iff, List.contains_iff_mem, beq_iff_eq] at facts
  obtain ⟨⟨quiet, inside⟩, kind⟩ := facts
  exact ⟨parsed, _, _, _, _, wasParsed, quiet, Arena.Reachable.of_child inside, kind, rfl⟩

end ParsedModule

end ModuleLang
