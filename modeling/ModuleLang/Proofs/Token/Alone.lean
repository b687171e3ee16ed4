import Mathlib.Data.List.TakeWhile
import ModuleLang.Proofs.RoundTrip.Reading
import ModuleLang.Proofs.Token.Joining

/-!
Every token stands alone. What is read where a lexeme was cut out of a text is read
again from the characters of that lexeme by themselves, whatever stood behind them and
whatever is wrong with them. So the characters that a token spans are read as that token
and nothing else. A blank is no such token: four spaces within a row are a blank, and by
themselves a step of indentation.
-/

namespace ModuleLang

namespace Lexeme

open ModuleLang.Text

section Readers

theorem take_while_alone (taken : Char → Bool) (text : List Char) :
    (text.take (text.takeWhile taken).length).takeWhile taken = text.takeWhile taken := by
  rw [← List.prefix_iff_eq_take.mp (List.takeWhile_prefix taken), List.takeWhile_takeWhile]
  congr 1
  funext character
  simp only [and_self, Bool.decide_eq_true]

theorem number_lexeme_begins (seenPoint : Bool) (text : List Char) :
    Number.lexeme seenPoint text <+: text := by
  induction text generalizing seenPoint with
  | nil => exact List.prefix_rfl
  | cons character text ih =>
      unfold Number.lexeme
      split
      · exact List.prefix_cons_inj character |>.mpr (ih seenPoint)
      · split
        · exact List.prefix_cons_inj character |>.mpr (ih true)
        · exact List.nil_prefix

/-- The digit behind a point belongs to the lexeme, so the point is taken again. -/
theorem number_lexeme_alone (seenPoint : Bool) (text : List Char) :
    Number.lexeme seenPoint (Number.lexeme seenPoint text) = Number.lexeme seenPoint text := by
  induction text generalizing seenPoint with
  | nil => rfl
  | cons character text ih =>
      by_cases part : (isAlphanumeric character || character == '_') = true
      · have here : ∀ others, Number.lexeme seenPoint (character :: others) =
            character :: Number.lexeme seenPoint others := by
          intro others
          rw [Number.lexeme, if_pos part]
        rw [here, here, ih]
      by_cases point : (character == '.' && !seenPoint && text.head?.any isAsciiDigit) = true
      · have digit : (Number.lexeme true text).head?.any isAsciiDigit = true := by
          simp only [Bool.and_eq_true] at point
          cases text with
          | nil => exact point.2
          | cons next text =>
              have isDigit : isAsciiDigit next = true := point.2
              rw [Number.lexeme, Text.alphanumeric_of_digit isDigit, Bool.true_or, if_pos rfl]
              exact isDigit
        have again : (character == '.' && !seenPoint &&
            (Number.lexeme true text).head?.any isAsciiDigit) = true := by
          simp only [Bool.and_eq_true] at point ⊢
          exact ⟨point.1, digit⟩
        rw [Number.lexeme, if_neg part, if_pos point, Number.lexeme, if_neg part, if_pos again, ih]
      · rw [Number.lexeme, if_neg part, if_neg point, Number.lexeme]

theorem take_behind {offset stop : Nat} (front rest : List Char)
    (bound : offset + front.length ≤ stop) :
    (front ++ rest).take (stop - offset) = front ++ rest.take (stop - (offset + front.length)) := by
  rw [List.take_append, List.take_of_length_le (by omega), Nat.sub_sub]

theorem stop_push (character : Char) (body : QuotedBody) :
    (body.push character).stop = body.stop := rfl

theorem stop_push_unknown (offset : Nat) (letter : Char) (body : QuotedBody) :
    (body.pushUnknown offset letter).stop = body.stop := rfl

/-- A quotation is read again from the characters that were read, whether it was closed,
broken off by the end of a row or left open at the end of the text. -/
theorem read_quoted_alone (quote : Char) (spansRows : Bool) (offset : Nat) (text : List Char) :
    readQuoted quote spansRows offset
        (text.take ((readQuoted quote spansRows offset text).stop - offset)) =
      readQuoted quote spansRows offset text := by
  induction offset, text using readQuoted.induct quote spansRows with
  | case1 offset => rw [List.take_nil]
  | case2 offset =>
      rw [readQuoted, Nat.add_sub_cancel_left]
      rfl
  | case3 offset letter rest character found ih =>
      have forward := (read_quoted_bounds quote spansRows (offset + 2) rest).1
      have here : ∀ others, readQuoted quote spansRows offset ('\\' :: letter :: others) =
          (readQuoted quote spansRows (offset + 2) others).push character := by
        intro others
        rw [readQuoted, found]
      have taken : ('\\' :: letter :: rest).take _ = '\\' :: letter :: rest.take _ :=
        take_behind ['\\', letter] rest forward
      rw [here rest, stop_push, taken, here]
      exact congrArg (QuotedBody.push character) ih
  | case4 offset letter rest found ih =>
      have forward := (read_quoted_bounds quote spansRows (offset + 2) rest).1
      have here : ∀ others, readQuoted quote spansRows offset ('\\' :: letter :: others) =
          (readQuoted quote spansRows (offset + 2) others).pushUnknown offset letter := by
        intro others
        rw [readQuoted, found]
      have taken : ('\\' :: letter :: rest).take _ = '\\' :: letter :: rest.take _ :=
        take_behind ['\\', letter] rest forward
      rw [here rest, stop_push_unknown, taken, here]
      exact congrArg (QuotedBody.pushUnknown offset letter) ih
  | case5 offset rest single escape =>
      have here : ∀ others, readQuoted quote spansRows offset (quote :: others) =
          ⟨offset + 1, [], [], true⟩ := by
        intro others
        rw [read_quoted_plain (unescaped single escape), if_pos rfl]
      rw [here, Nat.add_sub_cancel_left]
      exact here []
  | case6 offset character rest single escape apart stops =>
      rw [read_quoted_plain (unescaped single escape), if_neg apart, if_pos stops, Nat.sub_self]
      rfl
  | case7 offset character rest single escape apart stays ih =>
      have forward := (read_quoted_bounds quote spansRows (offset + 1) rest).1
      have here : ∀ others, readQuoted quote spansRows offset (character :: others) =
          (readQuoted quote spansRows (offset + 1) others).push character := by
        intro others
        rw [read_quoted_plain (unescaped single escape), if_neg apart, if_neg stays]
      have taken : (character :: rest).take _ = character :: rest.take _ :=
        take_behind [character] rest forward
      rw [here rest, stop_push, taken, here]
      exact congrArg (QuotedBody.push character) ih

theorem read_string_alone (rest : List Char) :
    readString (rest.take ((readString rest).length - 1)) = readString rest := by
  unfold readString
  dsimp only
  rw [read_quoted_alone]

theorem read_char_alone (rest : List Char) :
    readChar (rest.take ((readChar rest).length - 1)) = readChar rest := by
  rw [read_char_length]
  unfold readChar
  rw [read_quoted_alone]

theorem read_number_alone (text : List Char) :
    readNumber (text.take (readNumber text).length) = readNumber text := by
  have length : (readNumber text).length = (Number.lexeme false text).length := by
    unfold readNumber
    dsimp only
    split <;> rfl
  rw [length, ← List.prefix_iff_eq_take.mp (number_lexeme_begins false text)]
  unfold readNumber
  rw [number_lexeme_alone]

theorem read_word_alone (text : List Char) :
    readWord (text.take (readWord text).length) = readWord text := by
  have length : (readWord text).length = (text.takeWhile isWordPart).length := rfl
  rw [length]
  unfold readWord
  rw [take_while_alone]

/-- The operator at the front of a text has the first spelling of the table that the text
begins with. -/
theorem leading_iff {text : List Char} {length : Nat} {spelt : Operator} :
    Operator.leading? text = some (length, spelt) ↔
      ∃ (before : List (String × Operator)) (spelling : String) (after : List (String × Operator)),
        Operator.spellings = before ++ (spelling, spelt) :: after ∧
        (∀ other ∈ before, ¬ other.1.toList <+: text) ∧ spelling.toList <+: text ∧
        spelling.length = length := by
  simp only [Operator.leading?, Option.map_eq_some_iff, List.find?_eq_some_iff_append, Prod.mk.injEq]
  constructor
  · intro found
    rcases found with ⟨⟨spelling, own⟩, ⟨begins, before, after, table, others⟩, same, rfl⟩
    refine ⟨before, spelling, after, table, ?_, List.isPrefixOf_iff_prefix.mp begins, same⟩
    intro other member match_
    have absent := others other member
    rw [List.isPrefixOf_iff_prefix.mpr match_] at absent
    cases absent
  · intro found
    rcases found with ⟨before, spelling, after, table, others, begins, same⟩
    refine ⟨(spelling, spelt), ⟨List.isPrefixOf_iff_prefix.mpr begins, before, after, table, ?_⟩,
      same, rfl⟩
    intro other member
    rw [Bool.not_eq_true', Bool.eq_false_iff]
    intro match_
    exact others other member (List.isPrefixOf_iff_prefix.mp match_)

theorem leading_alone {text : List Char} {length : Nat} {spelt : Operator}
    (found : Operator.leading? text = some (length, spelt)) :
    Operator.leading? (text.take length) = some (length, spelt) := by
  rcases leading_iff.mp found with ⟨before, spelling, after, table, others, begins, rfl⟩
  refine leading_iff.mpr ⟨before, spelling, after, table, ?_, ?_, rfl⟩
  · intro other member match_
    exact others other member (match_.trans (List.take_prefix _ _))
  · have same : text.take spelling.length = spelling.toList := by
      rw [← String.length_toList]
      exact (List.prefix_iff_eq_take.mp begins).symm
    exact same ▸ (spelling.toList.prefix_refl)

/-- A spelling is listed before its own beginnings, so no longer one fits. -/
theorem leading_longest {text : List Char} {length : Nat} {spelt : Operator}
    (found : Operator.leading? text = some (length, spelt)) :
    (String.ofList (text.take length), spelt) ∈ Operator.spellings ∧
      ∀ other ∈ Operator.spellings, other.1.toList <+: text → other.1.length ≤ length := by
  have sorted : Operator.spellings.Pairwise fun earlier later =>
      ¬ (earlier.1.toList <+: later.1.toList ∧ earlier.1.length < later.1.length) := by decide
  rcases leading_iff.mp found with ⟨before, spelling, after, table, others, begins, rfl⟩
  rw [← String.length_toList, ← List.prefix_iff_eq_take.mp begins, String.ofList_toList]
  constructor
  · rw [table]
    exact List.mem_append_right _ List.mem_cons_self
  · intro other member match_
    rw [table] at member sorted
    rcases List.mem_append.mp member with earlier | here
    · exact absurd match_ (others other earlier)
    · rcases List.mem_cons.mp here with rfl | later
      · exact Nat.le_of_eq String.length_toList.symm
      · have apart := (List.pairwise_cons.mp (List.pairwise_append.mp sorted).2.1).1 other later
        by_contra longer
        rw [String.length_toList, Nat.not_le] at longer
        exact apart ⟨List.prefix_of_prefix_length_le begins match_
          (by rw [String.length_toList, String.length_toList]; exact Nat.le_of_lt longer), longer⟩

theorem read_symbol_alone (first : Char) (rest : List Char) :
    readSymbol first ((first :: rest).take (readSymbol first (first :: rest)).length) =
      readSymbol first (first :: rest) := by
  unfold readSymbol
  cases Punctuation.ofChar? first with
  | some mark => rfl
  | none =>
      cases found : Operator.leading? (first :: rest) with
      | some entry => simp only [plain, leading_alone found]
      | none =>
          have alone : Operator.leading? [first] = none := by
            rw [Option.eq_none_iff_forall_ne_some]
            intro entry same
            rcases leading_iff.mp same with ⟨before, spelling, after, table, -, begins, -⟩
            have absent := List.find?_eq_none.mp (Option.map_eq_none_iff.mp found)
              (spelling, entry.2) (by rw [table]; exact List.mem_append_right _ List.mem_cons_self)
            exact absent (List.isPrefixOf_iff_prefix.mpr (begins.trans ⟨rest, rfl⟩))
          dsimp only
          rw [List.take_succ_cons, List.take_zero, alone]

end Readers

/-- Whatever the front of a text is read as, its characters alone are read so too. -/
theorem read_alone (first : Char) (rest : List Char) :
    read first (rest.take ((read first rest).length - 1)) = read first rest := by
  have front : ∀ {length : Nat}, 0 < length →
      first :: rest.take (length - 1) = (first :: rest).take length := by
    intro length filled
    rw [← List.take_succ_cons, Nat.sub_add_cancel filled]
  have filled := (fits_read first rest).filled
  by_cases feed : first = '\n'
  · have here : ∀ others, read first others = plain 1 .endOfLine := by
      intro others
      rw [read, if_pos feed]
    rw [here, here]
  by_cases returns : first = '\r'
  · have here : ∀ others, read first others =
        plain (if others.head? = some '\n' then 2 else 1) .endOfLine := by
      intro others
      rw [read, if_neg feed, if_pos returns]
    rw [here rest, here]
    cases rest with
    | nil => rw [List.take_nil]
    | cons next rest =>
        by_cases next_ : next = '\n'
        · simp [next_, plain]
        · simp [next_, plain]
  by_cases blank : isBlank first = true
  · have here : ∀ others, read first others =
        plain ((first :: others).takeWhile isInlineBlank).length .blank := by
      intro others
      rw [read, if_neg feed, if_neg returns, if_pos blank]
    rw [here rest] at filled ⊢
    rw [here, front filled]
    exact congrArg (fun run : List Char => plain run.length .blank) (take_while_alone _ _)
  by_cases slashes : first = '/' ∧ rest.head? = some '/'
  · have here : ∀ others, others.head? = some '/' → read first others =
        plain ((first :: others).takeWhile fun character => !isLineBreak character).length
          .comment := by
      intro others second
      rw [read, if_neg feed, if_neg returns, if_neg blank, if_pos ⟨slashes.1, second⟩]
    rcases slashes with ⟨rfl, second⟩
    rcases List.head?_eq_some_iff.mp second with ⟨more, rfl⟩
    have long : (('/' :: '/' :: more).takeWhile fun character => !isLineBreak character).length =
        (more.takeWhile fun character => !isLineBreak character).length + 2 := rfl
    rw [here _ second] at filled ⊢
    rw [here, front filled]
    · exact congrArg (fun run : List Char => plain run.length .comment) (take_while_alone _ _)
    · rw [plain, long]
      rfl
  have calm : ∀ count, ¬ (first = '/' ∧ (rest.take count).head? = some '/') := by
    intro count both
    cases rest with
    | nil => rw [List.take_nil] at both; exact slashes both
    | cons next rest =>
        cases count with
        | zero => cases both.2
        | succ count => exact slashes both
  have here : ∀ others, ¬ (first = '/' ∧ others.head? = some '/') → read first others =
      if first = ';' then plain 1 .endOfStatement
      else if first = stringQuote then readString others
      else if first = charQuote then readChar others
      else if isAsciiDigit first then readNumber (first :: others)
      else if isWordStart first then readWord (first :: others)
      else readSymbol first (first :: others) := by
    intro others calm
    rw [read, if_neg feed, if_neg returns, if_neg blank, if_neg calm]
  rw [here (rest.take _) (calm _), here rest slashes]
  by_cases ends : first = ';'
  · rw [if_pos ends, if_pos ends]
  simp only [if_neg ends]
  by_cases double : first = stringQuote
  · simp only [if_pos double]
    exact read_string_alone rest
  simp only [if_neg double]
  by_cases single : first = charQuote
  · simp only [if_pos single]
    exact read_char_alone rest
  simp only [if_neg single]
  by_cases digit : isAsciiDigit first = true
  · simp only [if_pos digit]
    rw [front (fits_number rest digit).filled]
    exact read_number_alone (first :: rest)
  simp only [if_neg digit]
  by_cases starts : isWordStart first = true
  · simp only [if_pos starts]
    have filled : 0 < (readWord (first :: rest)).length :=
      (fits_run rest (word_part_of_start starts) (word_meaning_going "")).filled
    rw [front filled]
    exact read_word_alone (first :: rest)
  simp only [if_neg starts]
  rw [front (fits_symbol first rest).filled]
  exact read_symbol_alone first rest

/-- How a lexeme is cut off the front of a text: as a step of indentation, or as what is
read there. -/
inductive Cut : List Char → Lexeme → Prop
  | indentation {text : List Char} {length : Nat} (found : indentationLength? text = some length) :
      Cut text (plain length .indentation)
  | front (first : Char) (rest : List Char) : Cut (first :: rest) (read first rest)

variable {text : List Char} {lexeme : Lexeme}

theorem Cut.fits (cut : Cut text lexeme) : Fits text lexeme := by
  cases cut with
  | indentation found => exact fits_indentation found
  | front first rest => exact fits_read first rest

theorem Cut.confined (cut : Cut text lexeme) : lexeme.Confined := by
  cases cut with
  | indentation found => exact confined_plain _ _
  | front first rest => exact confined_read first rest

theorem read_all_cut (budget : Nat) (rowStart : Bool) (first : Char) (rest : List Char) :
    ∃ (lexeme : Lexeme) (row : Bool), Cut (first :: rest) lexeme ∧
      readAll (budget + 1) rowStart (first :: rest) =
        lexeme :: readAll budget row ((first :: rest).drop lexeme.length) := by
  cases found : (if rowStart then indentationLength? (first :: rest) else none) with
  | some length =>
      have steps : indentationLength? (first :: rest) = some length := by
        split at found
        · exact found
        · cases found
      refine ⟨plain length .indentation, true, .indentation steps, ?_⟩
      simp only [readAll, found]
      rfl
  | none =>
      refine ⟨read first rest, (read first rest).meaning == some .endOfLine, .front first rest, ?_⟩
      simp only [readAll, found]

/-- What begins with a step of indentation is read as a blank. -/
theorem unindented_of_read {first : Char} {rest : List Char}
    (solid : (read first rest).meaning ≠ some .blank) (others : List Char) :
    indentationLength? (first :: others) = none := by
  by_cases blank : isBlank first = true
  · by_cases feed : first = '\n'
    · rw [feed]
      rfl
    by_cases returns : first = '\r'
    · rw [returns]
      rfl
    rw [read, if_neg feed, if_neg returns, if_pos blank] at solid
    exact absurd rfl solid
  · exact indentation_of_solid (Bool.not_eq_true _ ▸ blank) others

/-- The characters of a lexeme are this lexeme and nothing else, but for a blank. -/
theorem Cut.alone (cut : Cut text lexeme) (solid : lexeme.meaning ≠ some .blank) :
    ofText (text.take lexeme.length) = [lexeme] := by
  have nothing : ∀ budget row, readAll budget row [] = [] := by
    intro budget row
    cases budget <;> rfl
  cases cut with
  | indentation found =>
      unfold indentationLength? at found
      split at found
      · cases found
        rfl
      · cases found
        rfl
      · cases found
  | front first rest =>
      have filled := (fits_read first rest).filled
      have whole : (first :: rest).take (read first rest).length =
          first :: rest.take ((read first rest).length - 1) := by
        rw [← List.take_succ_cons, Nat.sub_add_cancel filled]
      have ended : (first :: rest.take ((read first rest).length - 1)).drop
          (read first rest).length = [] := by
        rw [← whole]
        exact List.drop_eq_nil_of_le (List.length_take_le _ _)
      rw [whole, ofText, List.length_cons]
      simp only [readAll, if_true, unindented_of_read solid, read_alone, ended, nothing]

/-- Only where nothing else begins is an operator read. -/
theorem symbol_of_operator {first : Char} {rest : List Char} {spelt : Operator}
    (shown : (read first rest).meaning = some (.operator spelt)) :
    read first rest = readSymbol first (first :: rest) := by
  have word : ∀ word, wordMeaning word ≠ .operator spelt :=
    word_meaning_apart (by simp) (by simp) (by simp)
  have character : (readChar rest).meaning ≠ some (.operator spelt) := by
    unfold readChar
    dsimp only
    split <;> nofun
  have number : (readNumber (first :: rest)).meaning ≠ some (.operator spelt) := by
    unfold readNumber
    dsimp only
    split <;> nofun
  revert shown
  unfold read
  dsimp only
  split; · nofun
  split; · nofun
  split; · nofun
  split; · nofun
  split; · nofun
  split; · nofun
  split
  · intro same
    exact absurd same character
  split
  · intro same
    exact absurd same number
  split
  · intro same
    exact absurd (Option.some.inj same) (word _)
  · intro
    rfl

/-- An operator has the spelling that `leading?` finds. -/
theorem leading_of_read {first : Char} {rest : List Char} {spelt : Operator}
    (shown : (read first rest).meaning = some (.operator spelt)) :
    Operator.leading? (first :: rest) = some ((read first rest).length, spelt) := by
  rw [symbol_of_operator shown]
  rw [symbol_of_operator shown] at shown
  unfold readSymbol at shown ⊢
  split at shown
  · cases shown
  split at shown
  · rename_i length other found
    cases shown
    exact found
  · cases shown

end Lexeme

namespace Span

/-- The characters of a text whose positions lie in a span. -/
def slice (span : Span) (text : List Char) : List Char :=
  (text.zipIdx.filter fun entry => decide (span.start ≤ .ofOffset text entry.2) &&
    decide (.ofOffset text entry.2 < span.stop)).map Prod.fst

/-- Whether two spans have characters in common. -/
def meets (span other : Span) : Bool :=
  decide (other.start < span.stop) && decide (span.start < other.stop)

theorem not_meets_behind {span other : Span} (behind : span.stop ≤ other.start) :
    span.meets other = false := by
  rw [meets, decide_eq_false fun before => before.2 behind, Bool.false_and]

theorem not_meets_before {span other : Span} (before : other.stop ≤ span.start) :
    span.meets other = false := by
  rw [meets, decide_eq_false fun behind : span.start < other.stop => behind.2 before,
    Bool.and_false]

theorem meets_self {span : Span} (filled : span.start < span.stop) : span.meets span = true := by
  rw [meets, decide_eq_true filled, Bool.true_and]

end Span

/-- The characters of a text from a position on. -/
def Position.rest (position : Position) (text : List Char) : List Char :=
  (text.zipIdx.filter fun entry => decide (position ≤ .ofOffset text entry.2)).map Prod.fst

namespace Position

variable {text : List Char}

theorem of_offset_le_iff {first second : Nat} :
    ofOffset text first ≤ ofOffset text second ↔ first ≤ second := by
  constructor
  · intro order
    by_contra behind
    exact (of_offset_strict text (Nat.lt_of_not_le behind)).2 order
  · exact of_offset_mono text

theorem of_offset_lt_iff {first second : Nat} :
    ofOffset text first < ofOffset text second ↔ first < second := by
  constructor
  · intro order
    by_contra behind
    exact order.2 (of_offset_mono text (Nat.le_of_not_lt behind))
  · exact of_offset_strict text

/-- Characters that are kept for the places where they stand. -/
theorem filter_zip_idx {kept : Nat → Bool} {before middle after : List Char}
    (low : ∀ place < before.length, kept place = false)
    (inside : ∀ place, before.length ≤ place → place < before.length + middle.length →
      kept place = true)
    (high : ∀ place, before.length + middle.length ≤ place →
      place < before.length + middle.length + after.length → kept place = false) :
    (((before ++ middle ++ after).zipIdx.filter fun entry => kept entry.2).map Prod.fst) =
      middle := by
  have none_before : (before.zipIdx.filter fun entry => kept entry.2) = [] := by
    rw [List.filter_eq_nil_iff]
    intro entry member
    rw [low _ (List.snd_lt_of_mem_zipIdx member)]
    exact Bool.false_ne_true
  have all_inside : ((middle.zipIdx before.length).filter fun entry => kept entry.2) =
      middle.zipIdx before.length := by
    rw [List.filter_eq_self]
    intro entry member
    exact inside _ (List.le_snd_of_mem_zipIdx member) (List.snd_lt_add_of_mem_zipIdx member)
  have none_after : ((after.zipIdx (before.length + middle.length)).filter
      fun entry => kept entry.2) = [] := by
    rw [List.filter_eq_nil_iff]
    intro entry member
    rw [high _ (List.le_snd_of_mem_zipIdx member) (List.snd_lt_add_of_mem_zipIdx member)]
    exact Bool.false_ne_true
  rw [List.zipIdx_append, List.zipIdx_append, List.filter_append, List.filter_append,
    none_before, Nat.zero_add, all_inside, List.length_append, Nat.zero_add, none_after,
    List.nil_append, List.append_nil, List.zipIdx_map_fst]

/-- The characters from an offset on. -/
theorem rest_of_offset {offset : Nat} (bound : offset ≤ text.length) :
    (ofOffset text offset).rest text = text.drop offset := by
  have length : (text.take offset).length = offset := List.length_take_of_le bound
  have kept := @filter_zip_idx (fun place => decide (ofOffset text offset ≤ ofOffset text place))
    (text.take offset) (text.drop offset) []
  rw [List.append_nil, List.take_append_drop, length] at kept
  apply kept
  · intro place before
    exact decide_eq_false (mt of_offset_le_iff.mp (Nat.not_le_of_lt before))
  · intro place behind _
    exact decide_eq_true (of_offset_le_iff.mpr behind)
  · intro place behind before
    exact absurd before (Nat.not_lt_of_le behind)

end Position

/-- The characters between two offsets. -/
theorem Span.slice_of_offset {text : List Char} {span : Span} {first next : Nat}
    (order : first ≤ next) (bound : next ≤ text.length)
    (start : span.start = .ofOffset text first) (stop : span.stop = .ofOffset text next) :
    span.slice text = (text.drop first).take (next - first) := by
  have length : (text.take first).length = first :=
    List.length_take_of_le (Nat.le_trans order bound)
  have inner : ((text.drop first).take (next - first)).length = next - first := by
    apply List.length_take_of_le
    rw [List.length_drop]
    omega
  have kept := @Position.filter_zip_idx (fun place =>
      decide (span.start ≤ .ofOffset text place) && decide (.ofOffset text place < span.stop))
    (text.take first) ((text.drop first).take (next - first)) ((text.drop first).drop (next - first))
  rw [List.append_assoc, List.take_append_drop, List.take_append_drop, length, inner,
    Nat.add_sub_cancel' order] at kept
  apply kept
  · intro place before
    rw [start, decide_eq_false (mt Position.of_offset_le_iff.mp (Nat.not_le_of_lt before)),
      Bool.false_and]
  · intro place behind before
    rw [start, stop, decide_eq_true (Position.of_offset_le_iff.mpr behind),
      decide_eq_true (Position.of_offset_lt_iff.mpr before), Bool.true_and]
  · intro place behind _
    rw [stop, decide_eq_false (mt Position.of_offset_lt_iff.mp (Nat.not_lt_of_le behind)),
      Bool.and_false]

namespace Tokenized

/-- The report about a fault of the lexeme that begins where a walk stands. -/
def reportOf (fileName : String) (reading : Reading) (fault : Fault) : Diagnostic :=
  ⟨fault.kind, (reading.advance fault.start).span (fault.stop - fault.start), fileName⟩

/-- Reports that have characters of a span in theirs. -/
def reportsOn (read : Tokenized) (span : Span) : List Diagnostic :=
  read.diagnostics.filter fun found => span.meets found.span

/-- No report begins before the reading. -/
theorem locate_reports (fileName : String) (reading : Reading) (lexemes : List Lexeme) :
    ∀ found ∈ (locate fileName reading lexemes).diagnostics,
      reading.position ≤ found.span.start := by
  induction lexemes generalizing reading with
  | nil => nofun
  | cons lexeme lexemes ih =>
      intro found member
      rcases List.mem_append.mp member with own | later
      · rcases List.mem_map.mp own with ⟨fault, -, rfl⟩
        exact reading.le_advance fault.start
      · exact Position.le_trans (reading.le_advance lexeme.length)
          (ih (reading.advance lexeme.length) found later)

/-- The report about a fault ends within the lexeme. -/
theorem stop_report {fileName : String} {text : List Char} {offset : Nat} {lexeme : Lexeme}
    (inside : offset + lexeme.length ≤ text.length) (confined : lexeme.Confined) {fault : Fault}
    (member : fault ∈ lexeme.faults) :
    (reportOf fileName (.ofOffset text offset) fault).span.stop ≤
      .ofOffset text (offset + lexeme.length) := by
  have bounds := confined fault member
  simp only [reportOf, Reading.span]
  rw [Reading.advance_of_offset (by omega), Reading.advance_of_offset (by omega)]
  exact Position.of_offset_mono text (by omega)

/-- Every token was cut off the text where its span starts, and the reports on its span
are about the faults of what was cut off. -/
theorem found_of_token {fileName : String} {text : List Char} {budget offset : Nat}
    {rowStart : Bool} {token : Token} (bound : offset ≤ text.length)
    (member : token ∈ (locate fileName (.ofOffset text offset)
      (Lexeme.readAll budget rowStart (text.drop offset))).tokens)
    (going : token.kind ≠ .endOfFile) :
    ∃ (place : Nat) (lexeme : Lexeme), Lexeme.Cut (text.drop place) lexeme ∧
      place + lexeme.length ≤ text.length ∧ lexeme.meaning = some token.kind ∧
      token.span = (Reading.ofOffset text place).span lexeme.length ∧
      (locate fileName (.ofOffset text offset)
        (Lexeme.readAll budget rowStart (text.drop offset))).reportsOn token.span =
        (lexeme.faults.map (reportOf fileName (.ofOffset text place))).filter
          fun found => token.span.meets found.span := by
  induction budget generalizing offset rowStart with
  | zero =>
      obtain rfl := List.mem_singleton.mp member
      exact absurd rfl going
  | succ budget ih =>
      cases left : text.drop offset with
      | nil =>
          rw [left] at member
          obtain rfl := List.mem_singleton.mp member
          exact absurd rfl going
      | cons first rest =>
          rcases Lexeme.read_all_cut budget rowStart first rest with ⟨lexeme, row, cut, next⟩
          rw [← left] at cut next
          have within := cut.fits.within
          rw [List.length_drop] at within
          have inside : offset + lexeme.length ≤ text.length := by omega
          rw [← left, next, List.drop_drop]
          rw [next, List.drop_drop] at member
          have forward := Reading.advance_of_offset inside
          have parts : ∀ span : Span, (locate fileName (.ofOffset text offset) (lexeme ::
              Lexeme.readAll budget row (text.drop (offset + lexeme.length)))).reportsOn span =
              ((lexeme.faults.map (reportOf fileName (.ofOffset text offset))).filter
                fun found => span.meets found.span) ++
              (locate fileName (.ofOffset text (offset + lexeme.length))
                (Lexeme.readAll budget row (text.drop (offset + lexeme.length)))).reportsOn span := by
            intro span
            simp only [reportsOn, locate, forward, List.filter_append]
            rfl
          simp only [locate, forward] at member
          rcases List.mem_append.mp member with own | later
          · rcases Option.map_eq_some_iff.mp (Option.mem_toList.mp own) with ⟨kind, means, rfl⟩
            refine ⟨offset, lexeme, cut, inside, means, rfl, ?_⟩
            -- What is read behind the token is reported behind it.
            have behind : (locate fileName (.ofOffset text (offset + lexeme.length))
                (Lexeme.readAll budget row (text.drop (offset + lexeme.length)))).reportsOn
                  ((Reading.ofOffset text offset).span lexeme.length) = [] := by
              apply List.filter_eq_nil_iff.mpr
              intro found reported
              have start := locate_reports fileName _ _ found reported
              apply Bool.eq_false_iff.mp
              apply Span.not_meets_behind
              simp only [Reading.span, forward]
              exact start
            rw [parts, behind, List.append_nil]
          · rcases ih inside later with ⟨place, held, cut', inside', means, span, reports⟩
            refine ⟨place, held, cut', inside', means, span, ?_⟩
            -- What was read before the token is reported before it.
            have before : ((lexeme.faults.map (reportOf fileName (.ofOffset text offset))).filter
                fun found => token.span.meets found.span) = [] := by
              apply List.filter_eq_nil_iff.mpr
              intro found reported
              rcases List.mem_map.mp reported with ⟨fault, faulty, rfl⟩
              have start := ((locate_spans fileName _ _).1 token later).1
              apply Bool.eq_false_iff.mp
              apply Span.not_meets_before
              exact Position.le_trans (stop_report inside cut.confined faulty) start
            rw [parts, before, List.nil_append, reports]

/-- Every token was cut off the text where its span starts. -/
theorem cut_of_token {fileName : String} {text : List Char} {budget offset : Nat} {rowStart : Bool} {token : Token}
    (bound : offset ≤ text.length)
    (member : token ∈ (locate fileName (.ofOffset text offset)
      (Lexeme.readAll budget rowStart (text.drop offset))).tokens)
    (going : token.kind ≠ .endOfFile) :
    ∃ (place : Nat) (lexeme : Lexeme), Lexeme.Cut (text.drop place) lexeme ∧
      place + lexeme.length ≤ text.length ∧ lexeme.meaning = some token.kind ∧
      token.span.start = .ofOffset text place ∧
      token.span.stop = .ofOffset text (place + lexeme.length) := by
  rcases found_of_token bound member going with ⟨place, lexeme, cut, inside, means, span, -⟩
  refine ⟨place, lexeme, cut, inside, means, ?_, ?_⟩
  · rw [span]
    rfl
  · rw [span]
    exact congrArg Reading.position (Reading.advance_of_offset inside)

/-- The characters of a token are read as this token and the end of the file, whatever
stands around them in the text. If the token is an operator, they are the longest
spelling of an operator that the text has there. -/
theorem of_text_alone {text fileName : String} {token : Token}
    (member : token ∈ (ofText text fileName).sequence.tokens.toList)
    (solid : token.kind ≠ .blank) (going : token.kind ≠ .endOfFile) :
    let slice := token.span.slice text.toList
    let behind := token.span.start.rest text.toList
    (ofText (String.ofList slice) fileName).sequence.tokens.toList.map Token.kind =
        [token.kind, .endOfFile] ∧
      ∀ spelt, token.kind = .operator spelt →
        (String.ofList slice, spelt) ∈ Operator.spellings ∧ slice <+: behind ∧
        ∀ other ∈ Operator.spellings, other.1.toList <+: behind →
          other.1.length ≤ slice.length := by
  intro slice behind
  rw [tokens_of_text] at member
  rcases @cut_of_token fileName text.toList text.toList.length 0 true token (Nat.zero_le _) member
    going with
    ⟨place, lexeme, cut, inside, means, start, stop⟩
  have spans : slice = (text.toList.drop place).take lexeme.length := by
    have cutOut := Span.slice_of_offset (Nat.le_add_right _ _) inside start stop
    rw [Nat.add_sub_cancel_left] at cutOut
    exact cutOut
  have remains : behind = text.toList.drop place := by
    change Position.rest token.span.start text.toList = _
    rw [start, Position.rest_of_offset (Nat.le_of_add_right_le inside)]
  constructor
  · have shown : lexeme.meaning ≠ some .blank := by
      rw [means]
      exact fun same => solid (Option.some.inj same)
    rw [tokens_of_text, ofText, String.toList_ofList, spans, cut.alone shown]
    simp only [locate, means]
    rfl
  · intro spelt operator
    rw [operator] at means
    have found : Operator.leading? (text.toList.drop place) = some (lexeme.length, spelt) := by
      generalize text.toList.drop place = left at cut
      cases cut with
      | indentation => cases means
      | front first rest => exact Lexeme.leading_of_read means
    have length : slice.length = lexeme.length := by
      rw [spans, List.length_take_of_le cut.fits.within]
    rcases Lexeme.leading_longest found with ⟨listed, longest⟩
    rw [length, spans, remains]
    exact ⟨listed, List.take_prefix _ _, longest⟩

/-- An operator between a name and a character literal that is not closed. -/
theorem of_text_alone_operator :
    let token : Token := ⟨.operator .lessEqual, ⟨⟨0, 1⟩, ⟨0, 3⟩, by decide⟩⟩
    token.span.slice "a<='x".toList = ['<', '='] ∧
      (ofText "<=" "m.plp").sequence.tokens.toList.map Token.kind =
        [.operator .lessEqual, .endOfFile] := by
  intro token
  have slice : token.span.slice "a<='x".toList = ['<', '='] := by decide +kernel
  have alone := @of_text_alone "a<='x" "m.plp" token (by decide +kernel) (by decide) (by decide)
  refine ⟨slice, ?_⟩
  rw [slice] at alone
  exact alone.1

end Tokenized

end ModuleLang
