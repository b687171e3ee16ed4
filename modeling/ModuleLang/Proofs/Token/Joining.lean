import Mathlib.Data.List.Find
import ModuleLang.Proofs.Token.Rows
import ModuleLang.Proofs.Token.Tiling

/-!
Two texts with a line feed between them. A lexeme that ends in front of the line feed is
read as it is at the end of its text, unless it is a quotation that is left open there or a
lone carriage return. So the tokens of the joined text are those of the first one, a line
end, and those of the second one further down, and so are its reports. The other faults of
a lexeme, such as a bad escape or number, do not matter.
-/

namespace ModuleLang

namespace Lexeme

open ModuleLang.Text

variable {first : Char} {rest more : List Char}

/-- Codes of the reports about a string and a character that nothing closes. The second
one also says that not exactly one character stands between the quotes. -/
abbrev openStringCode : String := "TOK1001"

abbrev openCharCode : String := "TOK1005"

/-- No fault says that a quotation is left open. -/
def Closed (lexeme : Lexeme) : Prop :=
  ∀ fault ∈ lexeme.faults, fault.kind.code ≠ openStringCode ∧ fault.kind.code ≠ openCharCode

/-- The faults lie within the lexeme. -/
def Confined (lexeme : Lexeme) : Prop :=
  ∀ fault ∈ lexeme.faults, fault.start ≤ lexeme.length ∧ fault.stop ≤ lexeme.length

theorem take_while_seam {taken : Char → Bool} (stops : taken '\n' = false) (text more : List Char) :
    (text ++ '\n' :: more).takeWhile taken = text.takeWhile taken := by
  induction text with
  | nil => exact List.takeWhile_cons_of_neg (by rw [stops]; exact Bool.false_ne_true)
  | cons character text ih =>
      rw [List.cons_append, List.takeWhile_cons, List.takeWhile_cons, ih]

/-- A character that begins no escape is no backslash. -/
theorem unescaped {character : Char} {text : List Char}
    (single : character = '\\' → text = [] → False)
    (escape : ∀ letter others, character = '\\' → text = letter :: others → False) :
    character ≠ '\\' := by
  intro same
  cases text with
  | nil => exact single same rfl
  | cons letter others => exact escape letter others same rfl

/-- Any character but a backslash is read by itself. -/
theorem read_quoted_plain {quote character : Char} {spansRows : Bool} {offset : Nat}
    (plain : character ≠ '\\') (text : List Char) :
    readQuoted quote spansRows offset (character :: text) =
      if character = quote then ⟨offset + 1, [], [], true⟩
      else if !spansRows && isLineBreak character then ⟨offset, [], [], false⟩
      else (readQuoted quote spansRows (offset + 1) text).push character :=
  readQuoted.eq_4 _ _ _ _ _ (fun same => absurd same plain) fun _ _ same => absurd same plain

/-- What follows a closed quotation does not matter. -/
theorem read_quoted_seam (quote : Char) (spansRows : Bool) (offset : Nat) (text more : List Char)
    (closed : (readQuoted quote spansRows offset text).closed = true) :
    readQuoted quote spansRows offset (text ++ more) = readQuoted quote spansRows offset text := by
  induction offset, text using readQuoted.induct quote spansRows with
  | case1 offset =>
      rw [readQuoted] at closed
      cases closed
  | case2 offset =>
      rw [readQuoted] at closed
      cases closed
  | case3 offset letter rest character found ih =>
      simp only [readQuoted, found, QuotedBody.push] at closed
      simp only [List.cons_append, readQuoted, found, ih closed]
  | case4 offset letter rest found ih =>
      simp only [readQuoted, found, QuotedBody.pushUnknown] at closed
      simp only [List.cons_append, readQuoted, found, ih closed]
  | case5 offset rest single escape =>
      have plain := unescaped single escape
      rw [List.cons_append, read_quoted_plain plain, read_quoted_plain plain, if_pos rfl,
        if_pos rfl]
  | case6 offset character rest single escape apart stops =>
      rw [read_quoted_plain (unescaped single escape), if_neg apart, if_pos stops] at closed
      cases closed
  | case7 offset character rest single escape apart stays ih =>
      have plain := unescaped single escape
      rw [read_quoted_plain plain, if_neg apart, if_neg stays] at closed
      rw [List.cons_append, read_quoted_plain plain, read_quoted_plain plain, if_neg apart,
        if_neg apart, if_neg stays, if_neg stays, ih closed]

theorem number_lexeme_seam (seenPoint : Bool) (text more : List Char) :
    Number.lexeme seenPoint (text ++ '\n' :: more) = Number.lexeme seenPoint text := by
  induction text generalizing seenPoint with
  | nil => rfl
  | cons character text ih =>
      have next : (text ++ '\n' :: more).head?.any isAsciiDigit = text.head?.any isAsciiDigit := by
        cases text <;> rfl
      rw [List.cons_append, Number.lexeme, Number.lexeme, ih, ih, next]

/-- No spelling of an operator has a line feed. -/
theorem leading_seam (text more : List Char) :
    Operator.leading? (text ++ '\n' :: more) = Operator.leading? text := by
  have same : ∀ spelling : List Char, '\n' ∉ spelling → ∀ text : List Char,
      spelling.isPrefixOf (text ++ '\n' :: more) = spelling.isPrefixOf text := by
    intro spelling
    induction spelling with
    | nil => intro _ text; simp
    | cons character spelling ih =>
        intro absent text
        rw [List.mem_cons, not_or] at absent
        cases text with
        | nil => simp [List.isPrefixOf, Ne.symm absent.1]
        | cons next text => simp [List.isPrefixOf, ih absent.2 text]
  have without : ∀ entry ∈ Operator.spellings, '\n' ∉ entry.1.toList := by decide
  unfold Operator.leading?
  congr 1
  apply List.find?_congr
  intro entry member
  exact same _ (without entry member) text

theorem indentation_seam (text more : List Char) :
    indentationLength? (text ++ '\n' :: more) = indentationLength? text := by
  conv => rhs; unfold indentationLength?
  split
  · rfl
  · rfl
  · rename_i tab spaces
    apply indentationLength?.eq_3
    · intro rest same
      rcases text with _ | ⟨first, text⟩
      · cases same
      · injection same with first
        exact tab text (by rw [first])
    · intro rest same
      rcases text with _ | ⟨first, _ | ⟨second, _ | ⟨third, _ | ⟨fourth, text⟩⟩⟩⟩
      · cases same
      · cases same
      · cases same
      · cases same
      · injection same with first same
        injection same with second same
        injection same with third same
        injection same with fourth
        exact spaces text (by rw [first, second, third, fourth])

/-- A lexeme that is closed is read in front of a line feed as it is at the end. -/
theorem read_seam (closed : (read first rest).Closed)
    (last : (first :: rest).getLast? ≠ some '\r') (more : List Char) :
    read first (rest ++ '\n' :: more) = read first rest := by
  have text : first :: (rest ++ '\n' :: more) = first :: rest ++ '\n' :: more := rfl
  have string : (readString rest).Closed →
      readString (rest ++ '\n' :: more) = readString rest := by
    intro closed
    have ended : (readQuoted stringQuote true 1 rest).closed = true := by
      by_contra unclosed
      rw [readString, if_neg unclosed] at closed
      exact (closed _ (List.mem_append_right _ (List.mem_singleton.mpr rfl))).1 rfl
    unfold readString
    rw [read_quoted_seam _ _ _ _ _ ended]
  have character : (readChar rest).Closed →
      readChar (rest ++ '\n' :: more) = readChar rest := by
    intro closed
    have ended : (readQuoted charQuote false 1 rest).closed = true := by
      by_contra unclosed
      rw [Bool.not_eq_true] at unclosed
      simp only [readChar, unclosed] at closed
      exact (closed _ (List.mem_append_right _ (List.mem_singleton.mpr rfl))).2 rfl
    unfold readChar
    rw [read_quoted_seam _ _ _ _ _ ended]
  have number : readNumber (first :: (rest ++ '\n' :: more)) = readNumber (first :: rest) := by
    unfold readNumber
    rw [text, number_lexeme_seam]
  have word : readWord (first :: (rest ++ '\n' :: more)) = readWord (first :: rest) := by
    unfold readWord
    rw [text, take_while_seam (by decide)]
  have symbol : readSymbol first (first :: (rest ++ '\n' :: more)) =
      readSymbol first (first :: rest) := by
    unfold readSymbol
    rw [text, leading_seam]
  have slashes : (first = '/' ∧ (rest ++ '\n' :: more).head? = some '/') ↔
      (first = '/' ∧ rest.head? = some '/') := by
    cases rest <;> simp
  have blanks : (first :: (rest ++ '\n' :: more)).takeWhile isInlineBlank =
      (first :: rest).takeWhile isInlineBlank :=
    @take_while_seam isInlineBlank (by decide) (first :: rest) more
  have comment : (first :: (rest ++ '\n' :: more)).takeWhile (fun character => !isLineBreak character) =
      (first :: rest).takeWhile fun character => !isLineBreak character :=
    @take_while_seam (fun character => !isLineBreak character) (by decide) (first :: rest) more
  have row : first = '\r' →
      ((rest ++ '\n' :: more).head? = some '\n' ↔ rest.head? = some '\n') := by
    rintro rfl
    cases rest with
    | nil => exact absurd rfl last
    | cons next rest => rfl
  unfold read at closed ⊢
  dsimp only at closed ⊢
  by_cases feed : first = '\n'
  · rw [if_pos feed, if_pos feed]
  by_cases returns : first = '\r'
  · rw [if_neg feed, if_neg feed, if_pos returns, if_pos returns]
    simp only [row returns]
  rw [if_neg feed, if_neg returns] at closed ⊢
  rw [if_neg feed, if_neg returns]
  by_cases blank : isBlank first = true
  · rw [if_pos blank, if_pos blank, blanks]
  rw [if_neg blank] at closed ⊢
  rw [if_neg blank]
  by_cases slash : first = '/' ∧ rest.head? = some '/'
  · rw [if_pos slash, if_pos (slashes.mpr slash), comment]
  rw [if_neg slash] at closed
  rw [if_neg (fun found => slash (slashes.mp found)), if_neg slash]
  by_cases ends : first = ';'
  · rw [if_pos ends, if_pos ends]
  rw [if_neg ends] at closed ⊢
  rw [if_neg ends]
  by_cases quote : first = stringQuote
  · rw [if_pos quote] at closed ⊢
    rw [if_pos quote]
    exact string closed
  rw [if_neg quote] at closed ⊢
  rw [if_neg quote]
  by_cases single : first = charQuote
  · rw [if_pos single] at closed ⊢
    rw [if_pos single]
    exact character closed
  rw [if_neg single, if_neg single, number, word, symbol]

/-- The lexeme that a text begins with, and whether a row begins behind it. If it is closed
it is the same in front of a line feed. -/
theorem read_all_next (rowStart : Bool) (first : Char) (rest : List Char) :
    ∃ (lexeme : Lexeme) (row : Bool), Fits (first :: rest) lexeme ∧
      (∀ budget, readAll (budget + 1) rowStart (first :: rest) =
        lexeme :: readAll budget row ((first :: rest).drop lexeme.length)) ∧
      (lexeme.Closed → (first :: rest).getLast? ≠ some '\r' → ∀ more budget,
        readAll (budget + 1) rowStart (first :: rest ++ '\n' :: more) =
          lexeme :: readAll budget row ((first :: rest).drop lexeme.length ++ '\n' :: more)) := by
  have behind : ∀ {lexeme : Lexeme}, Fits (first :: rest) lexeme → ∀ more,
      (first :: rest ++ '\n' :: more).drop lexeme.length =
        (first :: rest).drop lexeme.length ++ '\n' :: more :=
    fun fits _ => List.drop_append_of_le_length fits.within
  cases found : (if rowStart then indentationLength? (first :: rest) else none) with
  | some length =>
      have fits : Fits (first :: rest) (plain length .indentation) := by
        split at found
        · exact fits_indentation found
        · cases found
      refine ⟨plain length .indentation, true, fits, ?_, ?_⟩
      · intro budget
        simp only [readAll, found]
        rfl
      · intro _ _ more budget
        have seam := indentation_seam (first :: rest) more
        rw [List.cons_append] at seam
        rw [← behind fits, List.cons_append]
        simp only [readAll, seam, found]
        rfl
  | none =>
      have fits := fits_read first rest
      refine ⟨read first rest, (read first rest).meaning == some .endOfLine, fits, ?_, ?_⟩
      · intro budget
        simp only [readAll, found]
      · intro closed last more budget
        have seam := indentation_seam (first :: rest) more
        rw [List.cons_append] at seam
        rw [← behind fits, List.cons_append]
        simp only [readAll, seam, found, read_seam closed last]

/-- What is left behind a lexeme is shorter. -/
theorem shorter_behind {text : List Char} {lexeme : Lexeme} {budget : Nat}
    (fits : Fits text lexeme) (enough : text.length ≤ budget + 1) :
    (text.drop lexeme.length).length ≤ budget := by
  have filled := fits.filled
  rw [List.length_drop]
  omega

/-- No more budget is needed than there are characters. -/
theorem read_all_budget {budget other : Nat} (rowStart : Bool) {text : List Char}
    (enough : text.length ≤ budget) (also : text.length ≤ other) :
    readAll budget rowStart text = readAll other rowStart text := by
  induction budget generalizing other rowStart text with
  | zero =>
      obtain rfl := List.length_eq_zero_iff.mp (Nat.le_zero.mp enough)
      cases other <;> rfl
  | succ budget ih =>
      cases text with
      | nil => cases other <;> rfl
      | cons first rest =>
          obtain ⟨other, rfl⟩ : ∃ less, other = less + 1 :=
            ⟨other - 1, by rw [List.length_cons] at also; omega⟩
          rcases read_all_next rowStart first rest with ⟨lexeme, row, fits, next, -⟩
          rw [next, next, ih row (shorter_behind fits enough) (shorter_behind fits also)]

/-- A line feed is a lexeme of its own. -/
theorem read_all_feed {budget : Nat} (rowStart : Bool) {more : List Char}
    (enough : ('\n' :: more).length ≤ budget) :
    readAll budget rowStart ('\n' :: more) = plain 1 .endOfLine :: ofText more := by
  obtain ⟨budget, rfl⟩ : ∃ less, budget = less + 1 :=
    ⟨budget - 1, by rw [List.length_cons] at enough; omega⟩
  have row : (if rowStart then indentationLength? ('\n' :: more) else none) = none := by
    cases rowStart <;> rfl
  have here : read '\n' more = plain 1 .endOfLine := by rw [read, if_pos rfl]
  simp only [readAll, row, here]
  congr 1
  exact read_all_budget true (Nat.le_of_succ_le_succ enough) (Nat.le_refl _)

theorem read_all_seam {budget other : Nat} (rowStart : Bool) {text more : List Char}
    (enough : (text ++ '\n' :: more).length ≤ budget) (also : text.length ≤ other)
    (closed : ∀ lexeme ∈ readAll other rowStart text, lexeme.Closed)
    (last : text.getLast? ≠ some '\r') :
    readAll budget rowStart (text ++ '\n' :: more) =
      readAll other rowStart text ++ plain 1 .endOfLine :: ofText more := by
  induction other generalizing budget rowStart text with
  | zero =>
      obtain rfl := List.length_eq_zero_iff.mp (Nat.le_zero.mp also)
      exact read_all_feed rowStart enough
  | succ other ih =>
      cases text with
      | nil => exact read_all_feed rowStart enough
      | cons first rest =>
          obtain ⟨budget, rfl⟩ : ∃ less, budget = less + 1 :=
            ⟨budget - 1, by rw [List.length_append, List.length_cons] at enough; omega⟩
          rcases read_all_next rowStart first rest with ⟨lexeme, row, fits, next, seam⟩
          have filled := fits.filled
          have within := fits.within
          rw [next, List.forall_mem_cons] at closed
          rw [next, seam closed.1 last, List.cons_append,
            ih row ?_ (shorter_behind fits also) closed.2 ?_]
          · rw [List.length_append] at enough ⊢
            rw [List.length_drop]
            omega
          · rw [List.getLast?_drop]
            split
            · nofun
            · exact last

/-- The lexemes of two texts with a line feed between them. -/
theorem of_text_seam {text more : List Char}
    (closed : ∀ lexeme ∈ ofText text, lexeme.Closed)
    (last : text.getLast? ≠ some '\r') :
    ofText (text ++ '\n' :: more) = ofText text ++ plain 1 .endOfLine :: ofText more :=
  read_all_seam true (Nat.le_refl _) (Nat.le_refl _) closed last

/-- An escape is read with the letter behind it. -/
theorem read_quoted_unknown (quote : Char) (spansRows : Bool) (offset : Nat) (text : List Char) :
    ∀ entry ∈ (readQuoted quote spansRows offset text).unknown,
      entry.1 + 2 ≤ (readQuoted quote spansRows offset text).stop := by
  induction offset, text using readQuoted.induct quote spansRows with
  | case1 offset => simp [readQuoted]
  | case2 offset => simp [readQuoted]
  | case3 offset letter rest character found ih =>
      simp only [readQuoted, found, QuotedBody.push]
      exact ih
  | case4 offset letter rest found ih =>
      have forward := (read_quoted_bounds quote spansRows (offset + 2) rest).1
      simp only [readQuoted, found, QuotedBody.pushUnknown, List.forall_mem_cons]
      exact ⟨forward, ih⟩
  | case5 offset rest single escape =>
      rw [readQuoted.eq_4 _ _ _ _ _ single escape, if_pos rfl]
      exact List.forall_mem_nil _
  | case6 offset character rest single escape apart stops =>
      rw [readQuoted.eq_4 _ _ _ _ _ single escape, if_neg apart, if_pos stops]
      exact List.forall_mem_nil _
  | case7 offset character rest single escape apart stays ih =>
      rw [readQuoted.eq_4 _ _ _ _ _ single escape, if_neg apart, if_neg stays]
      exact ih

theorem read_char_length (rest : List Char) :
    (readChar rest).length = (readQuoted charQuote false 1 rest).stop := by
  unfold readChar
  dsimp only
  split <;> rfl

theorem confined_plain (length : Nat) (kind : TokenKind) : (plain length kind).Confined := by
  nofun

theorem confined_quoted (quote : Char) (spansRows : Bool) (text : List Char) (kind : DiagnosticKind) :
    let body := readQuoted quote spansRows 1 text
    ∀ fault ∈ escapeFaults body ++ [⟨kind, 0, body.stop⟩],
      fault.start ≤ body.stop ∧ fault.stop ≤ body.stop := by
  intro body fault member
  rcases List.mem_append.mp member with escape | whole
  · rcases List.mem_map.mp escape with ⟨entry, listed, rfl⟩
    have bound := read_quoted_unknown quote spansRows 1 text entry listed
    exact ⟨Nat.le_trans (Nat.le_add_right _ _) bound, bound⟩
  · obtain rfl := List.mem_singleton.mp whole
    exact ⟨Nat.zero_le _, Nat.le_refl _⟩

theorem confined_read (first : Char) (rest : List Char) : (read first rest).Confined := by
  have string : (readString rest).Confined := by
    intro fault member
    apply confined_quoted stringQuote true rest .unterminatedString
    rcases List.mem_append.mp member with escape | unclosed
    · exact List.mem_append_left _ escape
    · split at unclosed
      · cases unclosed
      · exact List.mem_append_right _ unclosed
  have character : (readChar rest).Confined := by
    intro fault member
    rw [read_char_length]
    apply confined_quoted charQuote false rest .invalidChar
    unfold readChar at member
    dsimp only at member
    split at member
    · exact List.mem_append_left _ member
    · exact member
  have number : (readNumber (first :: rest)).Confined := by
    unfold readNumber
    dsimp only
    split
    · exact confined_plain _ _
    · intro fault member
      obtain rfl := List.mem_singleton.mp member
      exact ⟨Nat.zero_le _, Nat.le_refl _⟩
  have symbol : (readSymbol first (first :: rest)).Confined := by
    unfold readSymbol
    split
    · exact confined_plain _ _
    · split
      · exact confined_plain _ _
      · intro fault member
        obtain rfl := List.mem_singleton.mp member
        exact ⟨Nat.zero_le _, Nat.le_refl _⟩
  unfold read
  dsimp only
  split
  · exact confined_plain _ _
  split
  · exact confined_plain _ _
  split
  · exact confined_plain _ _
  split
  · exact confined_plain _ _
  split
  · exact confined_plain _ _
  split
  · exact string
  split
  · exact character
  split
  · exact number
  split
  · exact confined_plain _ _
  · exact symbol

theorem confined_read_all (budget : Nat) (rowStart : Bool) (text : List Char) :
    ∀ lexeme ∈ readAll budget rowStart text, lexeme.Confined := by
  induction budget generalizing rowStart text with
  | zero => nofun
  | succ budget ih =>
      cases text with
      | nil => nofun
      | cons first rest =>
          unfold readAll
          split
          · rw [List.forall_mem_cons]
            exact ⟨confined_plain _ _, ih true _⟩
          · rw [List.forall_mem_cons]
            exact ⟨confined_read first rest, ih _ _⟩

end Lexeme

namespace Position

/-- Up to a line feed nothing depends on what is behind it, unless a carriage return stands
in front of it. -/
theorem of_offset_seam {text more : List Char} (last : text.getLast? ≠ some '\r') {offset : Nat}
    (bound : offset ≤ text.length) :
    ofOffset (text ++ '\n' :: more) offset = ofOffset text offset := by
  induction offset with
  | zero => rfl
  | succ offset ih =>
      have here : (text ++ '\n' :: more)[offset]? = text[offset]? :=
        List.getElem?_append_left bound
      have ends : endsRow (text ++ '\n' :: more) offset = endsRow text offset := by
        unfold endsRow
        rw [here]
        rcases Nat.eq_or_lt_of_le bound with same | before
        · have final : text[offset]? ≠ some '\r' := by
            rw [List.getLast?_eq_getElem?, ← same] at last
            exact last
          rw [beq_false_of_ne final, Bool.false_and, Bool.false_and]
        · rw [List.getElem?_append_left before]
      rw [of_offset_succ, of_offset_succ, ends, ih (Nat.le_of_succ_le bound)]

end Position

namespace Tokenized

theorem closed_of_reports {fileName : String} {reading : Reading} {lexemes : List Lexeme}
    (closed : ∀ found ∈ (locate fileName reading lexemes).diagnostics,
      found.code ≠ Lexeme.openStringCode ∧ found.code ≠ Lexeme.openCharCode) :
    ∀ lexeme ∈ lexemes, lexeme.Closed := by
  induction lexemes generalizing reading with
  | nil => nofun
  | cons lexeme lexemes ih =>
      simp only [locate, List.forall_mem_append] at closed
      rcases closed with ⟨own, rest⟩
      rw [List.forall_mem_cons]
      constructor
      · intro fault member
        exact own _ (List.mem_map_of_mem member)
      · exact ih rest

/-- Up to a line feed a span is the same as at the end of the text. -/
theorem span_seam {text : List Char} (more : List Char) (last : text.getLast? ≠ some '\r')
    {offset start count : Nat} (bound : offset + start + count ≤ text.length) :
    ((Reading.ofOffset (text ++ '\n' :: more) offset).advance start).span count =
      ((Reading.ofOffset text offset).advance start).span count := by
  have whole : offset + start + count ≤ (text ++ '\n' :: more).length := by
    rw [List.length_append]
    omega
  rw [Reading.advance_of_offset (Nat.le_of_add_right_le whole),
    Reading.advance_of_offset (Nat.le_of_add_right_le bound)]
  apply Span.ext
  · exact Position.of_offset_seam last (Nat.le_of_add_right_le bound)
  · simp only [Reading.span, Reading.advance_of_offset whole, Reading.advance_of_offset bound]
    exact Position.of_offset_seam last bound

/-- Lexemes that are followed by others, with the line feed behind them. -/
theorem locate_front (fileName : String) {text : List Char} (more : List Char) {offset : Nat}
    {lexemes : List Lexeme} (others : List Lexeme) (last : text.getLast? ≠ some '\r')
    (bound : offset ≤ text.length) (covers : Lexeme.Covers (text.drop offset) lexemes)
    (confined : ∀ lexeme ∈ lexemes, lexeme.Confined) :
    ∃ proper, (locate fileName (.ofOffset text offset) lexemes).tokens =
        proper ++ [⟨.endOfFile, .point (.ofOffset text text.length)⟩] ∧
      (∀ token ∈ proper, token.kind ≠ .endOfFile) ∧
      locate fileName (.ofOffset (text ++ '\n' :: more) offset) (lexemes ++ others) =
        ⟨proper ++ (locate fileName (.ofOffset (text ++ '\n' :: more) text.length) others).tokens,
          (locate fileName (.ofOffset text offset) lexemes).diagnostics ++
            (locate fileName (.ofOffset (text ++ '\n' :: more) text.length) others).diagnostics⟩ := by
  induction lexemes generalizing offset with
  | nil =>
      cases covers with
      | nil empty =>
          obtain rfl := Nat.le_antisymm bound (List.drop_eq_nil_iff.mp empty)
          exact ⟨[], rfl, by nofun, rfl⟩
  | cons lexeme lexemes ih =>
      cases covers with
      | cons fits rest =>
          have within := fits.within
          rw [List.length_drop] at within
          have inside : offset + lexeme.length ≤ text.length := by omega
          have whole : offset + lexeme.length ≤ (text ++ '\n' :: more).length := by
            rw [List.length_append]
            omega
          rw [List.drop_drop] at rest
          rw [List.forall_mem_cons] at confined
          rcases ih inside rest confined.2 with ⟨proper, tokens, going, joined⟩
          have same : (Reading.ofOffset (text ++ '\n' :: more) offset).span lexeme.length =
              (Reading.ofOffset text offset).span lexeme.length :=
            @span_seam text more last offset 0 lexeme.length inside
          have faults : (lexeme.faults.map fun fault => Diagnostic.mk fault.kind
                (((Reading.ofOffset (text ++ '\n' :: more) offset).advance fault.start).span
                  (fault.stop - fault.start)) fileName) =
              lexeme.faults.map fun fault => Diagnostic.mk fault.kind
                (((Reading.ofOffset text offset).advance fault.start).span
                  (fault.stop - fault.start)) fileName := by
            apply List.map_congr_left
            intro fault member
            have bounds := confined.1 fault member
            rw [span_seam more last (by omega)]
          refine ⟨(lexeme.meaning.map fun kind =>
            Token.mk kind ((Reading.ofOffset text offset).span lexeme.length)).toList ++ proper,
            ?_, ?_, ?_⟩
          · simp only [locate, Reading.advance_of_offset inside, tokens, List.append_assoc]
          · intro token member
            rcases List.mem_append.mp member with own | later
            · simp only [Option.mem_toList, Option.map_eq_some_iff] at own
              rcases own with ⟨kind, meaning, rfl⟩
              rcases fits.shown with ⟨_, means, going, -⟩ | ⟨none, -, -⟩
              · obtain rfl := Option.some.inj (meaning.symm.trans means)
                exact going
              · rw [none] at meaning
                cases meaning
            · exact going token later
          · simp only [List.cons_append, locate, Reading.advance_of_offset whole,
              Reading.advance_of_offset inside, joined, same, faults, List.append_assoc]

/-- Behind a line feed a text is read as by itself, further down. -/
theorem locate_behind_feed (fileName : String) {text : List Char} (more : List Char)
    (last : text.getLast? ≠ some '\r') (lexemes : List Lexeme) :
    let rows := (Position.ofOffset text text.length).row + 1
    ∃ span : Span, span.start = Position.ofOffset text text.length ∧
      span.stop = Position.start.lowered rows ∧
      locate fileName (.ofOffset (text ++ '\n' :: more) text.length)
          (.plain 1 .endOfLine :: lexemes) =
        ⟨⟨.endOfLine, span⟩ :: (locate fileName ⟨.start, more⟩ lexemes).tokens.map (Token.lowered rows),
          (locate fileName ⟨.start, more⟩ lexemes).diagnostics.map (Diagnostic.lowered rows)⟩ := by
  intro rows
  have feed : (Reading.ofOffset (text ++ '\n' :: more) text.length).advance 1 =
      ⟨Position.start.lowered rows, more⟩ := by
    have reading : Reading.ofOffset (text ++ '\n' :: more) text.length =
        ⟨Position.ofOffset text text.length, '\n' :: more⟩ := by
      unfold Reading.ofOffset
      rw [Position.of_offset_seam last (Nat.le_refl _), List.drop_left]
    rw [reading]
    simp only [Reading.advance, Position.walk, Position.after, true_or, if_true, Position.nextLine,
      Position.lowered, Position.start, Nat.zero_add, rows]
  refine ⟨(Reading.ofOffset (text ++ '\n' :: more) text.length).span 1, ?_, ?_, ?_⟩
  · exact Position.of_offset_seam last (Nat.le_refl _)
  · exact congrArg Reading.position feed
  · have rest := locate_lowered fileName rows .start more lexemes
    rw [← feed] at rest
    simp only [locate, Lexeme.plain, rest]
    rfl

/-- The tokens and reports of two texts with a line feed between them, of which the first
one leaves no quotation open. -/
theorem of_text_seam {first second fileName : String}
    (closed : ∀ found ∈ (ofText first fileName).diagnostics,
      found.code ≠ Lexeme.openStringCode ∧ found.code ≠ Lexeme.openCharCode)
    (last : first.toList.getLast? ≠ some '\r') :
    let rows := (Position.ending first.toList).row + 1
    ∃ (proper : List Token) (span : Span),
      (ofText first fileName).tokens =
        proper ++ [⟨.endOfFile, .point (.ending first.toList)⟩] ∧
      (∀ token ∈ proper, token.kind ≠ .endOfFile) ∧
      span.start = Position.ending first.toList ∧ span.stop = Position.start.lowered rows ∧
      (ofText (first ++ "\n" ++ second) fileName).tokens =
        proper ++ ⟨.endOfLine, span⟩ ::
          (ofText second fileName).tokens.map (Token.lowered rows) ∧
      (ofText (first ++ "\n" ++ second) fileName).diagnostics =
        (ofText first fileName).diagnostics ++
          (ofText second fileName).diagnostics.map (Diagnostic.lowered rows) := by
  intro rows
  rcases locate_front fileName second.toList
    (.plain 1 .endOfLine :: Lexeme.ofText second.toList) last (Nat.zero_le _)
    (Lexeme.covers_of_text first.toList)
    (Lexeme.confined_read_all first.toList.length true first.toList) with
    ⟨proper, tokens, going, joined⟩
  rcases locate_behind_feed fileName second.toList last (Lexeme.ofText second.toList) with
    ⟨span, starts, stops, behind⟩
  rw [behind, ← Lexeme.of_text_seam (closed_of_reports closed) last] at joined
  rw [← Position.ending_eq_of_offset] at tokens starts stops joined
  have text : (first ++ "\n" ++ second).toList = first.toList ++ '\n' :: second.toList := by
    simp
  refine ⟨proper, span, tokens, going, starts, stops, ?_, ?_⟩
  · unfold ofText
    rw [text]
    exact congrArg Tokenized.tokens joined
  · unfold ofText
    rw [text]
    exact congrArg Tokenized.diagnostics joined

/-- The tokens of two texts with a line feed between them, of which the first one is read
without a report. -/
theorem of_text_joined {first second fileName : String}
    (silent : (ofText first fileName).diagnostics = []) (last : first.toList.getLast? ≠ some '\r') :
    let rows := (Position.ending first.toList).row + 1
    ∃ (proper : List Token) (span : Span),
      (ofText first fileName).tokens =
        proper ++ [⟨.endOfFile, .point (.ending first.toList)⟩] ∧
      (∀ token ∈ proper, token.kind ≠ .endOfFile) ∧
      span.start = Position.ending first.toList ∧
      (ofText (first ++ "\n" ++ second) fileName).tokens =
        proper ++ ⟨.endOfLine, span⟩ ::
          (ofText second fileName).tokens.map (Token.lowered rows) ∧
      (ofText (first ++ "\n" ++ second) fileName).diagnostics =
        (ofText second fileName).diagnostics.map (Diagnostic.lowered rows) := by
  intro rows
  rcases @of_text_seam first second fileName (by rw [silent]; nofun) last with
    ⟨proper, span, tokens, going, starts, -, joined, reports⟩
  rw [silent, List.nil_append] at reports
  exact ⟨proper, span, tokens, going, starts, joined, reports⟩

end Tokenized

namespace TokenSequence

/-- The tokens of two sequences with a line end between them, those of the second one some
rows further down. The end of the first one is where the line end begins. -/
structure Joins (rows : Nat) (first second whole : TokenSequence) : Prop where
  size : whole.size = first.size + second.size
  front : ∀ index, index + 1 < first.size → whole.get index = first.get index
  going : ∀ index, index + 1 < first.size → (first.get index).kind ≠ .endOfFile
  seam : (whole.get (first.size - 1)).kind = .endOfLine
  starts : (whole.get (first.size - 1)).span.start = (first.get (first.size - 1)).span.start
  back : ∀ index, index < second.size →
    whole.get (first.size + index) = (second.get index).lowered rows

theorem joins_of_lists {rows : Nat} {first second whole : TokenSequence} {proper : List Token}
    {last row : Token} (front : first.tokens.toList = proper ++ [last])
    (going : ∀ token ∈ proper, token.kind ≠ .endOfFile) (kind : row.kind = .endOfLine)
    (starts : row.span.start = last.span.start)
    (joined : whole.tokens.toList = proper ++ row :: second.tokens.toList.map (Token.lowered rows)) :
    Joins rows first second whole := by
  have length : first.size = proper.length + 1 := by
    rw [size, ← Array.length_toList, front, List.length_append, List.length_singleton]
  have total : whole.size = first.size + second.size := by
    have other : second.tokens.toList.length = second.size := Array.length_toList
    rw [length, size, ← Array.length_toList, joined, List.length_append, List.length_cons,
      List.length_map, other]
    omega
  have here : ∀ {index}, index < first.size →
      (proper ++ [last])[index]? = some (first.get index) := by
    intro index bound
    rw [← front]
    exact get_of_list bound
  have there : ∀ {index}, index < whole.size →
      (proper ++ row :: second.tokens.toList.map (Token.lowered rows))[index]? =
        some (whole.get index) := by
    intro index bound
    rw [← joined]
    exact get_of_list bound
  have inside : ∀ {index}, index + 1 < first.size → proper[index]? = some (first.get index) := by
    intro index bound
    rw [← here (Nat.lt_of_succ_lt bound), List.getElem?_append_left (by omega)]
  have positive := second.size_pos
  have middle : first.size - 1 = proper.length := by omega
  have ends : first.get (first.size - 1) = last := by
    apply Option.some.inj
    rw [← here (by omega), middle, List.getElem?_append_right (Nat.le_refl _), Nat.sub_self]
    rfl
  have seam : whole.get (first.size - 1) = row := by
    apply Option.some.inj
    rw [← there (by omega), middle, List.getElem?_append_right (Nat.le_refl _), Nat.sub_self]
    rfl
  refine ⟨total, ?_, ?_, by rw [seam, kind], by rw [seam, ends, starts], ?_⟩
  · intro index bound
    apply Option.some.inj
    rw [← there (by omega), ← inside bound, List.getElem?_append_left (by omega)]
  · intro index bound
    exact going _ (List.mem_of_getElem? (inside bound))
  · intro index bound
    have offset : first.size + index - proper.length = index + 1 := by omega
    apply Option.some.inj
    rw [← there (by omega), List.getElem?_append_right (by omega), offset,
      List.getElem?_cons_succ, List.getElem?_map, get_of_list bound]
    rfl

end TokenSequence

/-- The sequences of two texts and of both with a line feed between them. -/
theorem Tokenized.joins_of_text {first second fileName : String}
    (silent : (ofText first fileName).diagnostics = [])
    (last : first.toList.getLast? ≠ some '\r') :
    TokenSequence.Joins ((Position.ending first.toList).row + 1) (ofText first fileName).sequence
      (ofText second fileName).sequence (ofText (first ++ "\n" ++ second) fileName).sequence := by
  rcases @of_text_joined first second fileName silent last with
    ⟨proper, span, tokens, going, starts, whole, -⟩
  refine @TokenSequence.joins_of_lists _ _ _ _ proper ⟨.endOfFile, .point (.ending first.toList)⟩
    ⟨.endOfLine, span⟩ ?_ going rfl starts ?_
  · rw [tokens_of_text]
    exact tokens
  · rw [tokens_of_text, tokens_of_text]
    exact whole

end ModuleLang
