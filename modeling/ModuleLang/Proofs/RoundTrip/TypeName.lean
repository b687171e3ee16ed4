import ModuleLang.Proofs.RoundTrip.Type
import ModuleLang.Proofs.Token.Alone
import ModuleLang.Proofs.Typing.Rewriting
import ModuleLang.Tree.Printer

/-!
The written form of a type. Three readers know it: the description of a host, the grammar
of modules, and inference, which also writes it. All of them read the text that a type is
shown as as this type; and a text without blanks that a description may use is the text
that its type is shown as.
-/

namespace ModuleLang

open ModuleLang.Text

namespace Lexeme

theorem word_of_meaning {word name : String} (means : wordMeaning word = .word name) :
    word = name := by
  unfold wordMeaning at means
  split at means
  · cases means
  · cases means
  · cases means
  · split at means
    · cases means
    · cases means
      rfl

/-- Only where a word begins is a name read. -/
theorem word_of_read {first : Char} {rest : List Char} {name : String}
    (shown : (read first rest).meaning = some (.word name)) :
    isWordStart first = true ∧ read first rest = readWord (first :: rest) := by
  have character : (readChar rest).meaning ≠ some (.word name) := by
    unfold readChar
    dsimp only
    split <;> nofun
  have number : (readNumber (first :: rest)).meaning ≠ some (.word name) := by
    unfold readNumber
    dsimp only
    split <;> nofun
  have symbol : (readSymbol first (first :: rest)).meaning ≠ some (.word name) := by
    unfold readSymbol
    split
    · nofun
    · split <;> nofun
  revert shown
  unfold read
  dsimp only
  split; · nofun
  split; · nofun
  split; · nofun
  split; · nofun
  split; · nofun
  split; · nofun
  split
  · intro same
    exact absurd same character
  split
  · intro same
    exact absurd same number
  split
  · rename_i starts
    intro
    exact ⟨starts, rfl⟩
  · intro same
    exact absurd same symbol

/-- Every name that is read is a word that is neither reserved nor a literal. -/
theorem Cut.name {text : List Char} {lexeme : Lexeme} {name : String} (cut : Cut text lexeme)
    (means : lexeme.meaning = some (.word name)) : isName name = true := by
  cases cut with
  | indentation => cases means
  | front first rest =>
      rcases word_of_read means with ⟨starts, word⟩
      rw [word] at means
      have meaning := Option.some.inj means
      have same := word_of_meaning meaning
      rw [same] at meaning
      have part := word_part_of_start starts
      rw [isName, meaning, ← same, String.toList_ofList, List.all_takeWhile,
        List.takeWhile_cons_of_pos part, List.head?_cons, Option.any_some, starts]
      exact beq_self_eq_true _

end Lexeme

/-- What is read as one word is a name. -/
theorem name_of_tokens {name fileName : String}
    (word : (Tokenized.ofText name fileName).tokens.map Token.kind = [.word name, .endOfFile]) :
    isName name = true := by
  rcases List.map_eq_cons_iff.mp word with ⟨token, others, tokens, kind, -⟩
  have member : token ∈ (Tokenized.ofText name fileName).tokens := by
    rw [tokens]
    exact List.mem_cons_self
  rcases @Tokenized.cut_of_token fileName name.toList name.toList.length 0 true token
      (Nat.zero_le _) member (by rw [kind]; nofun) with ⟨place, lexeme, cut, -, means, -⟩
  rw [kind] at means
  exact cut.name means

/-- The types that can be written for a host: arrays with up to 255 dimensions around
built-in types and types of the host whose names are read as one word. -/
inductive Host.Writes (host : Host) : Ty → Prop
  | builtin {name : String} {base : Ty} (found : Ty.builtin? name = some base) : Writes host base
  | hosted {name fileName : String} (offered : name ∈ host.types)
      (word : (Tokenized.ofText name fileName).tokens.map Token.kind = [.word name, .endOfFile])
      (other : Ty.builtin? name = none) : Writes host (.named name)
  | array {element : Ty} {rank : Nat} (inner : Writes host element) (least : 1 ≤ rank)
      (most : rank ≤ 255) : Writes host (.array element rank)

namespace Ty

/-- The marks of array suffixes. -/
def suffixMarks (ranks : List Nat) : List Punctuation :=
  ranks.flatMap fun rank =>
    .openBracket :: List.replicate (rank - 1) .comma ++ [.closeBracket]

theorem suffix_tokens (ranks : List Nat) :
    Parser.suffixTokens ranks = (suffixMarks ranks).map .punctuation := by
  simp [Parser.suffixTokens, suffixMarks, TokenKind.inBrackets, List.map_flatMap]

/-- The characters of array suffixes. -/
def suffixText (ranks : List Nat) : List Char := (suffixMarks ranks).map Punctuation.character

theorem suffix_text_append (ranks : List Nat) (rank : Nat) :
    suffixText (ranks ++ [rank]) =
      suffixText ranks ++ '[' :: List.replicate (rank - 1) ',' ++ [']'] := by
  simp [suffixText, suffixMarks, Punctuation.character]

theorem join_suffixes (ranks : List Nat) :
    (String.join (ranks.map rankSuffix)).toList = suffixText ranks := by
  induction ranks with
  | nil => rfl
  | cons rank ranks ih =>
      rw [List.map_cons, String.join_cons, String.toList_append, ih]
      simp [rankSuffix, suffixText, suffixMarks, Punctuation.character]

/-- The suffixes of an array stand behind what is inside, the first rank in front. -/
theorem text_layered (base : Ty) (ranks : List Nat) :
    (base.layered ranks).text = base.text ++ String.join (ranks.map rankSuffix) := by
  induction ranks generalizing base with
  | nil => exact String.append_empty.symm
  | cons rank ranks ih =>
      change ((array base rank).layered ranks).text = _
      rw [ih, text, List.map_cons, String.join_cons, String.append_assoc]

end Ty

namespace Host

variable {host : Host} {type : Ty}

theorem name_of_builtin {name : String} {base : Ty} (found : Ty.builtin? name = some base) :
    isName name = true := by
  rcases List.lookup_eq_some_iff.mp found with ⟨before, after, same, -⟩
  have member : name ∈ Ty.builtins.map Prod.fst := by simp [same]
  have each : ∀ name ∈ Ty.builtins.map Prod.fst, isName name = true := by decide +kernel
  exact each name member

/-- The parts of a type that can be written: a name and the ranks of its suffixes. -/
theorem Writes.parts (writes : host.Writes type) : ∃ name ranks, isName name = true ∧
    (∀ rank ∈ ranks, 1 ≤ rank ∧ rank ≤ 255) ∧ host.written? name ranks = some type := by
  induction writes with
  | @builtin name base found =>
      refine ⟨name, [], name_of_builtin found, List.forall_mem_nil _, ?_⟩
      rw [written?, found]
      rfl
  | @hosted name fileName offered word other =>
      refine ⟨name, [], name_of_tokens word, List.forall_mem_nil _, ?_⟩
      rw [written?, other, type?, if_pos (List.contains_iff_mem.mpr offered)]
      rfl
  | @array element rank inner least most ih =>
      rcases ih with ⟨name, ranks, named, each, written⟩
      refine ⟨name, ranks ++ [rank], named, ?_, ?_⟩
      · intro other member
        rcases List.mem_append.mp member with earlier | last
        · exact each other earlier
        · obtain rfl := List.mem_singleton.mp last
          exact ⟨least, most⟩
      · rcases Option.map_eq_some_iff.mp written with ⟨base, found, rfl⟩
        rw [written?, found, Option.map_some, Ty.layered, List.foldl_append]
        rfl

/-- A type that was written is shown as it was written. -/
theorem text_of_written {name : String} {ranks : List Nat}
    (written : host.written? name ranks = some type) :
    type.text = name ++ String.join (ranks.map Ty.rankSuffix) := by
  rcases Option.map_eq_some_iff.mp written with ⟨base, found, rfl⟩
  rw [Ty.text_layered]
  rcases (Option.orElse_eq_some _ _ _).mp found with builtin | ⟨-, hosted⟩
  · rw [(Ty.builtin_plain builtin).2]
  · rw [type_plain hosted]
    rfl

theorem text_list_of_written {name : String} {ranks : List Nat}
    (written : host.written? name ranks = some type) :
    type.text.toList = name.toList ++ Ty.suffixText ranks := by
  rw [text_of_written written, String.toList_append, Ty.join_suffixes]

end Host

/-!
Descriptions of hosts. Suffixes are taken off the end of a text, the last one first.
-/

namespace Text

/-- No part of a word is blank. -/
theorem not_blank_of_part {character : Char} (part : Lexeme.isWordPart character = true) :
    isBlank character = false := by
  cases blank : isBlank character with
  | false => rfl
  | true =>
      rw [Lexeme.not_word_part_of_blank blank] at part
      cases part

variable {text : List Char}

theorem drop_solid (solid : ∀ character ∈ text, isBlank character = false) :
    text.dropWhile isBlank = text := by
  cases text with
  | nil => rfl
  | cons first rest => rw [List.dropWhile_cons_of_neg (by simp [solid first List.mem_cons_self])]

theorem trim_solid (solid : ∀ character ∈ text, isBlank character = false) : trim text = text := by
  have reversed : ∀ character ∈ text.reverse, isBlank character = false :=
    fun character member => solid character (List.mem_reverse.mp member)
  rw [trim, drop_solid solid, drop_solid reversed, List.reverse_reverse]

end Text

namespace TypeName

variable {rank : Nat} {ranks more : List Nat} {rest : List Char}

/-- The last suffix is taken off. -/
theorem unsuffixed_layer (least : 1 ≤ rank) (most : rank ≤ 255) :
    unsuffixed (']' :: (List.replicate (rank - 1) ',' ++ '[' :: rest)) ranks =
      unsuffixed (rest.dropWhile isBlank) (rank :: ranks) := by
  have commas : ∀ character ∈ List.replicate (rank - 1) ',', (character == ',') = true := by
    intro character member
    rw [List.eq_of_mem_replicate member]
    rfl
  have dropped : (List.replicate (rank - 1) ',' ++ '[' :: rest).dropWhile (· == ',') = '[' :: rest := by
    rw [List.dropWhile_append_of_pos commas, List.dropWhile_cons_of_neg (by decide)]
  have taken : (List.replicate (rank - 1) ',' ++ '[' :: rest).takeWhile (· == ',') =
      List.replicate (rank - 1) ',' := by
    rw [List.takeWhile_append_of_pos commas, List.takeWhile_cons_of_neg (by decide),
      List.append_nil]
  have same : rank - 1 + 1 = rank := by omega
  rw [unsuffixed]
  split
  · rename_i found
    rw [dropped] at found
    cases found
    simp only [taken, List.length_replicate, same, rankLimit, if_pos most]
  · rename_i other
    exact absurd dropped (other rest)

/-- What can be written is taken apart. -/
theorem unsuffixed_written {name : List Char}
    (parts : ∀ character ∈ name, Lexeme.isWordPart character = true)
    (written : ∀ rank ∈ ranks, 1 ≤ rank ∧ rank ≤ 255) :
    unsuffixed (name ++ Ty.suffixText ranks).reverse more =
      some (name.reverse, ranks ++ more) := by
  induction ranks using List.reverseRecOn generalizing more with
  | nil =>
      rw [show Ty.suffixText [] = [] from rfl, List.append_nil, unsuffixed.eq_2]
      · rfl
      · intro behind same
        have part : Lexeme.isWordPart ']' = true := parts _ (by
          rw [← List.mem_reverse, same]
          exact List.mem_cons_self)
        exact absurd part (by decide)
  | append_singleton ranks rank ih =>
      have shorter := fun other member => written other (List.mem_append_left _ member)
      have last := written rank (by simp)
      have solid : ∀ character ∈ (name ++ Ty.suffixText ranks).reverse,
          isBlank character = false := by
        intro character member
        rcases List.mem_append.mp (List.mem_reverse.mp member) with inside | mark
        · exact not_blank_of_part (parts character inside)
        · rcases List.mem_map.mp mark with ⟨sign, -, rfl⟩
          cases sign <;> rfl
      have text : (name ++ Ty.suffixText (ranks ++ [rank])).reverse =
          ']' :: (List.replicate (rank - 1) ',' ++ '[' :: (name ++ Ty.suffixText ranks).reverse) := by
        simp [Ty.suffix_text_append]
      rw [text, unsuffixed_layer last.1 last.2, drop_solid solid, ih shorter, List.append_assoc,
        List.singleton_append]

/-- What was taken apart is put together again, if there were no blanks. -/
theorem unsuffixed_spells {reversed name : List Char} {all : List Nat}
    (found : unsuffixed reversed ranks = some (name, all))
    (solid : ∀ character ∈ reversed, isBlank character = false) :
    ∃ more, all = more ++ ranks ∧ reversed = (Ty.suffixText more).reverse ++ name := by
  induction size : reversed.length using Nat.strongRecOn generalizing reversed ranks with
  | ind size shorter =>
      subst size
      unfold unsuffixed at found
      split at found
      · rename_i behind
        split at found
        · rename_i rest opened
          dsimp only at found
          split at found
          · have split := @List.takeWhile_append_dropWhile _ (fun mark : Char => mark == ',') behind
            have commas : behind.takeWhile (· == ',') =
                List.replicate (behind.takeWhile (· == ',')).length ',' :=
              List.eq_replicate_iff.mpr ⟨rfl, fun character member =>
                beq_iff_eq.mp (List.mem_takeWhile_imp (p := (· == ',')) member)⟩
            generalize (behind.takeWhile (· == ',')).length = count at found commas
            rw [opened, commas] at split
            subst split
            have restSolid : ∀ character ∈ rest, isBlank character = false :=
              fun character member => solid character (by simp [member])
            rw [drop_solid restSolid] at found
            rcases shorter rest.length (by simp; omega) found restSolid rfl with ⟨more, rfl, same⟩
            refine ⟨more ++ [count + 1], by simp, ?_⟩
            rw [same, Ty.suffix_text_append, Nat.add_sub_cancel]
            simp
          · cases found
        · cases found
      · cases found
        exact ⟨[], rfl, rfl⟩

variable {host : Host} {name : String} {type : Ty}

/-- What a name with suffixes means to a host is the same wherever it is written. -/
theorem resolve_of_parts {text : String} {reversed : List Char}
    (parts : unsuffixed (trim text.toList).reverse [] = some (reversed, ranks))
    (same : String.ofList reversed.reverse = name) :
    resolve? host.types text = host.written? name ranks := by
  unfold resolve?
  rw [parts]
  simp only [Option.bind_eq_bind, Option.bind_some, same, Host.written?, Host.type?]
  cases Ty.builtin? name with
  | some base => rfl
  | none => cases host.types.contains name <;> rfl

/-- A description reads what can be written. -/
theorem resolve_written (named : isName name = true)
    (written : ∀ rank ∈ ranks, 1 ≤ rank ∧ rank ≤ 255)
    (meant : host.written? name ranks = some type) :
    resolve? host.types type.text = some type := by
  have parts := List.all_eq_true.mp (name_parts named)
  have solid : ∀ character ∈ type.text.toList, isBlank character = false := by
    rw [Host.text_list_of_written meant]
    intro character member
    rcases List.mem_append.mp member with inside | mark
    · exact not_blank_of_part (parts character inside)
    · rcases List.mem_map.mp mark with ⟨sign, -, rfl⟩
      cases sign <;> rfl
  have apart : unsuffixed (trim type.text.toList).reverse [] =
      some (name.toList.reverse, ranks) := by
    rw [trim_solid solid, Host.text_list_of_written meant, unsuffixed_written parts written,
      List.append_nil]
  rw [resolve_of_parts apart (by rw [List.reverse_reverse, String.ofList_toList]), meant]

/-- A description is shown as it was written, without blanks. -/
theorem text_of_resolve {text : String} (found : resolve? host.types text = some type)
    (solid : ∀ character ∈ text.toList, isBlank character = false) : type.text = text := by
  cases parts : unsuffixed (trim text.toList).reverse [] with
  | none =>
      unfold resolve? at found
      rw [parts] at found
      cases found
  | some apart =>
      rcases apart with ⟨reversed, ranks⟩
      rw [resolve_of_parts parts rfl] at found
      rw [trim_solid solid] at parts
      rcases unsuffixed_spells parts fun character member =>
        solid character (List.mem_reverse.mp member) with ⟨more, rfl, same⟩
      apply String.toList_inj.mp
      rw [Host.text_list_of_written found, List.append_nil, String.toList_ofList,
        ← List.reverse_inj, same, List.reverse_append, List.reverse_reverse]

end TypeName

/-!
Modules. A name with array suffixes behind it is read as one type, up to the end of the
text.
-/

namespace Lexeme

theorem read_mark (mark : Punctuation) (rest : List Char) :
    read mark.character rest = .plain 1 (.punctuation mark) := by
  cases mark <;> rfl

/-- Marks are read one by one. -/
theorem read_all_marks {marks : List Punctuation} {budget : Nat} (enough : marks.length ≤ budget)
    (rowStart : Bool) : readAll budget rowStart (marks.map Punctuation.character) =
      marks.map fun mark => .plain 1 (.punctuation mark) := by
  induction marks generalizing budget rowStart with
  | nil => cases budget <;> rfl
  | cons mark marks ih =>
      obtain ⟨budget, rfl⟩ : ∃ less, budget = less + 1 := ⟨budget - 1, by simp at enough; omega⟩
      have solid : isBlank mark.character = false := by cases mark <;> rfl
      have step := @read_all_step mark.character [] (marks.map Punctuation.character) _ budget
        rowStart (fun _ => solid) (read_mark mark _)
      rw [List.map_cons, List.map_cons, ← ih (Nat.le_of_succ_le_succ enough)]
      exact step

/-- The lexemes of a name with array suffixes. -/
theorem read_all_type {name : String} {ranks : List Nat} (named : isName name = true) :
    ∃ length, readAll (name.toList ++ Ty.suffixText ranks).length true
        (name.toList ++ Ty.suffixText ranks) =
      .plain length (.word name) ::
        (Ty.suffixMarks ranks).map fun mark => .plain 1 (.punctuation mark) := by
  rcases name_letters named with ⟨first, body, text, starts, parts⟩
  have stops : ∀ next ∈ (Ty.suffixText ranks).head?, isWordPart next = false := by
    intro next member
    rcases List.mem_map.mp (List.mem_of_mem_head? member) with ⟨mark, -, rfl⟩
    cases mark <;> rfl
  have word := read_word starts (List.all_eq_true.mp parts) stops
  rw [← text, String.ofList_toList, name_means named] at word
  have solid : isBlank first = false := not_blank_of_part (word_part_of_start starts)
  refine ⟨body.length + 1, ?_⟩
  rw [text, List.length_append, List.length_cons, Nat.add_right_comm,
    read_all_step true (fun _ => solid) word, Ty.suffixText,
    read_all_marks (by rw [List.length_map]; omega)]

end Lexeme

/-- The tokens of a name with array suffixes. -/
theorem Tokenized.of_type {name text fileName : String} {ranks : List Nat}
    (named : isName name = true) (same : text.toList = name.toList ++ Ty.suffixText ranks) :
    (ofText text fileName).tokens.map Token.kind =
        .word name :: Parser.suffixTokens ranks ++ [.endOfFile] ∧
      (ofText text fileName).diagnostics = [] := by
  rcases @Lexeme.read_all_type name ranks named with ⟨length, lexemes⟩
  unfold ofText Lexeme.ofText
  rw [same, lexemes]
  apply locate_faultless
  · rw [Ty.suffix_tokens]
    simp [Lexeme.plain]
  · intro lexeme member
    rcases List.mem_cons.mp member with rfl | mark
    · rfl
    · rcases List.mem_map.mp mark with ⟨sign, -, rfl⟩
      rfl

/-- A type is made of all tokens of a name with array suffixes. -/
theorem Parser.type_of_text {name text fileName : String} {ranks : List Nat}
    (named : isName name = true) (written : ∀ rank ∈ ranks, 1 ≤ rank ∧ rank ≤ 255)
    (same : text.toList = name.toList ++ Ty.suffixText ranks) :
    ∃ node final, type.run (.initial (Tokenized.ofText text fileName).sequence fileName) =
        .ok (some node) final ∧
      final.context.cursor.atEnd = true ∧ final.context.diagnostics = [] ∧
      final.tree.arena.kind? node = some (.typeRef name ranks) := by
  have tokens : (Tokenized.ofText text fileName).sequence.tokens.toList.map Token.kind =
      [] ++ ((.word name :: suffixTokens ranks) ++ [.endOfFile]) := by
    rw [Tokenized.tokens_of_text, (Tokenized.of_type named same).1]
    rfl
  have solid : ∀ kind ∈ TokenKind.word name :: suffixTokens ranks,
      kind.isTrivia = false ∧ kind ≠ .endOfFile := by
    intro kind member
    rw [Ty.suffix_tokens] at member
    rcases List.mem_cons.mp member with rfl | mark
    · exact ⟨rfl, nofun⟩
    · rcases List.mem_map.mp mark with ⟨sign, -, rfl⟩
      exact ⟨rfl, nofun⟩
  have reads := ParserState.reads_of_shown (Cursor.shows_tokens solid tokens) fileName
  rw [← List.append_nil (TokenKind.word name :: suffixTokens ranks)] at reads
  have ends : TokenKind.EndsType [] := TokenKind.ends_type_of_ne (by simp [TokenKind.next])
  rcases yields_iff.mp (returns_type_ref written ends _ reads) with
    ⟨_, final, ran, node, rfl, held, continues⟩
  refine ⟨node, final, ran, ?_, continues.diagnostics, ?_⟩
  · rw [Cursor.atEnd, continues.reads.shows'.current_kind]
    rfl
  · rcases held.kind with ⟨kind, values, found, made⟩
    cases kind with
    | typeRef other others =>
        simp only [NodeKind.map, SyntaxTree.node.injEq, NodeKind.typeRef.injEq] at made
        rw [found, made.1, made.2]
    | _ => simp [NodeKind.map] at made

/-!
Inference. It reads a node as the type whose name and ranks the node has, and writes a
type as the node that has them.
-/

/-- Inference reads a node as a type, stores this, and reports nothing. -/
def InferenceState.Resolves (state : InferenceState) (environment : Environment) (node : NodeId)
    (type : Ty) : Prop :=
  ∃ final, (Inference.resolveType environment node).run state = .ok (some type) final ∧
    final.type? node = some type ∧ final.diagnostics = state.diagnostics

namespace Inference

variable {environment : Environment} {state : InferenceState} {type : Ty}

theorem resolves_of_written {node : NodeId} {name : String} {ranks : List Nat}
    (found : state.kind? node = some (.typeRef name ranks))
    (meant : environment.host.written? name ranks = some type) :
    state.Resolves environment node type := by
  rcases Option.map_eq_some_iff.mp meant with ⟨base, named, rfl⟩
  have bound : node.index < state.size := Arena.kind_bound found
  have yields : Yields (resolveType environment node) state fun result final =>
      result = some (base.layered ranks) ∧
        final = state.withArena (state.tree.arena.setType node (some (base.layered ranks))) := by
    unfold resolveType
    rw [yields_bind, yields_kind, found]
    simp only [named]
    rw [yields_bind, yields_set_type]
    exact ⟨rfl, rfl⟩
  rcases yields_iff.mp yields with ⟨_, final, ran, rfl, rfl⟩
  exact ⟨_, ran, Arena.type_set_type bound _, rfl⟩

/-- What inference writes for a type is shown like the type. -/
theorem text_of_type_ref {origin : NodeId} {span : Span}
    (spanned : state.span? origin = some span) (free : state.span? ⟨state.size⟩ = none) :
    ∃ node final, (addTypeRef type origin).run state = .ok node final ∧
      final.diagnostics = state.diagnostics ∧
      final.kind? node = some (.typeRef type.layers.1.text type.layers.2) ∧
      final.tree.arena.text? node =
        some (type.layers.1.text ++ String.join (type.layers.2.map Ty.rankSuffix)) := by
  have yields : Yields (addTypeRef type origin) state fun node final =>
      node = ⟨state.size⟩ ∧ final = state.spelled type span := by
    unfold addTypeRef
    refine yields_alloc_typed ?_
    rw [yields_bind, yields_on_tree, SourceTree.yields_on_spans]
    exact SpanTable.yields_copy spanned free ⟨rfl, rfl⟩
  rcases yields_iff.mp yields with ⟨_, _, ran, rfl, rfl⟩
  have found : (state.spelled type span).kind? ⟨state.size⟩ =
      some (.typeRef type.layers.1.text type.layers.2) := InferenceState.kind_of_grown
  have children : ∀ child ∈ (NodeKind.typeRef type.layers.1.text type.layers.2).children,
      (state.spelled type span).tree.arena.foldWithin
        (fun _ kind _ => Printer.plainText kind) 0 child = some "" := List.forall_mem_nil _
  exact ⟨_, _, ran, rfl, found, Arena.fold_of_fold_within (Arena.fold_within_node found children)⟩

end Inference

/-- All readers of written types agree with how types are shown. A type that can be
written for a host is what a description reads from the text of the type; the parser reads
all of the text as one node without a report, and inference reads this node as the type;
and what inference writes for the type is shown as the text, and read as the type. A text
without blanks that a description may use is the text of the type that it means. -/
theorem Host.type_text_read (host : Host) :
    (∀ type, host.Writes type →
      TypeName.resolve? host.types type.text = some type ∧
      (∀ fileName, (Tokenized.ofText type.text fileName).diagnostics = [] ∧
        ∃ node parsed, Parser.type.run
            (.initial (Tokenized.ofText type.text fileName).sequence fileName) =
              .ok (some node) parsed ∧
          parsed.context.cursor.atEnd = true ∧ parsed.context.diagnostics = [] ∧
          ∀ (environment : Environment) (state : InferenceState), environment.host = host →
            state.tree = parsed.tree → state.Resolves environment node type) ∧
      ∀ (state : InferenceState) (origin : NodeId) (span : Span),
        state.span? origin = some span → state.span? ⟨state.size⟩ = none →
        ∃ node written, (Inference.addTypeRef type origin).run state = .ok node written ∧
          written.diagnostics = state.diagnostics ∧
          written.tree.arena.text? node = some type.text ∧
          ∀ environment : Environment, environment.host = host →
            written.Resolves environment node type) ∧
    ∀ text type, (∀ character ∈ text.toList, isBlank character = false) →
      TypeName.resolve? host.types text = some type → type.text = text := by
  refine ⟨fun type writes => ?_, fun text type solid found => TypeName.text_of_resolve found solid⟩
  rcases writes.parts with ⟨name, ranks, named, each, meant⟩
  have same := Host.text_list_of_written meant
  refine ⟨TypeName.resolve_written named each meant, fun fileName => ?_,
    fun state origin span spanned free => ?_⟩
  · rcases @Parser.type_of_text name type.text fileName ranks named each same with
      ⟨node, parsed, ran, ended, silent, found⟩
    refine ⟨(Tokenized.of_type named same).2, node, parsed, ran, ended, silent, ?_⟩
    rintro environment state rfl within
    apply Inference.resolves_of_written _ meant
    rw [← found, ← within]
  · have reads := Host.reads_back_of_written meant
    rcases @Inference.text_of_type_ref state type origin span spanned free with
      ⟨node, written, ran, silent, found, shown⟩
    rw [← Host.text_of_written reads] at shown
    refine ⟨node, written, ran, silent, shown, ?_⟩
    rintro environment rfl
    exact Inference.resolves_of_written found reads

/-- A type of a host with one and with 255 dimensions, written into a tree with one
node, and a text with three dimensions. -/
theorem Host.type_text_read_point :
    let host : Host := ⟨["Point"], [], []⟩
    let environment : Environment := ⟨"m.plp", host, []⟩
    let type : Ty := .array (.array (.named "Point") 1) 255
    let state : InferenceState := .initial
      ⟨⟨#[⟨.breakLoop, none⟩]⟩, SpanTable.empty.insert ⟨0⟩ ⟨⟨0, 0⟩, ⟨0, 5⟩, by decide⟩⟩
    TypeName.resolve? host.types type.text = some type ∧
      (∃ node parsed, Parser.type.run
          (.initial (Tokenized.ofText type.text "m.plp").sequence "m.plp") = .ok (some node) parsed ∧
        (InferenceState.initial parsed.tree).Resolves environment node type) ∧
      (∃ node written, (Inference.addTypeRef type ⟨0⟩).run state = .ok node written ∧
        written.tree.arena.text? node = some type.text ∧
        written.Resolves environment node type) ∧
      TypeName.resolve? host.types "Point[,,]" = some (.array (.named "Point") 3) ∧
      (Ty.array (.named "Point") 3).text = "Point[,,]" := by
  intro host environment type state
  have word : (Tokenized.ofText "Point" "").tokens.map Token.kind = [.word "Point", .endOfFile] := by
    decide +kernel
  have writes : host.Writes type :=
    .array (.array (.hosted (by decide) word (by decide)) (by decide) (by decide)) (by decide)
      (by decide)
  have three : TypeName.resolve? host.types "Point[,,]" = some (.array (.named "Point") 3) := by
    decide +kernel
  have solid : ∀ character ∈ "Point[,,]".toList, isBlank character = false := by
    have each : ("Point[,,]".toList.all fun character => !isBlank character) = true := by decide
    simpa using each
  rcases (Host.type_text_read host).1 type writes with ⟨described, readable, writable⟩
  rcases readable "m.plp" with ⟨-, node, parsed, ran, -, -, resolves⟩
  rcases writable state ⟨0⟩ _ rfl rfl with ⟨added, written, wrote, -, shown, again⟩
  exact ⟨described, ⟨node, parsed, ran, resolves environment _ rfl rfl⟩,
    ⟨added, written, wrote, shown, again environment rfl⟩, three,
    (Host.type_text_read host).2 _ _ solid three⟩

end ModuleLang
