import Mathlib.Data.List.Sort
import ModuleLang.Proofs.Token.Layout
import ModuleLang.Proofs.Token.Letter

/-!
Nothing of a text is skipped and nothing is read twice. The position of a
character is found by counting the rows that end in front of it and the
characters behind the last of these ends, without a walk. Every lexeme takes at
least one character and at most those that are left; it means a token, or it is
one character that begins none and is reported. So the spans of tokens and of
these reports, in order, lead from the start of the text to its end.
-/

namespace ModuleLang

namespace Position

/-- Whether the character at an offset ends its row. In front of a line feed a
carriage return leaves that to the line feed. -/
def endsRow (text : List Char) (offset : Nat) : Bool :=
  text[offset]? == some '\n' || (text[offset]? == some '\r' && text[offset + 1]? != some '\n')

/-- Position of the character at an offset: the rows that end in front of it, and
the characters between the last of these ends and the offset. -/
def ofOffset (text : List Char) (offset : Nat) : Position where
  row := (List.range offset).countP (endsRow text)
  column := ((List.range offset).reverse.takeWhile fun index => !endsRow text index).length

theorem of_offset_zero (text : List Char) : ofOffset text 0 = .start := rfl

theorem of_offset_succ (text : List Char) (offset : Nat) :
    ofOffset text (offset + 1) =
      if endsRow text offset then (ofOffset text offset).nextLine
      else (ofOffset text offset).shifted 1 := by
  unfold ofOffset
  rw [List.range_succ, List.countP_append, List.reverse_append, List.reverse_singleton,
    List.singleton_append, List.takeWhile_cons]
  cases ends : endsRow text offset with
  | true => simp [ends, nextLine]
  | false => simp [ends, shifted]

/-- One step of the walk is one character further in the count. -/
theorem after_of_offset {text : List Char} {offset : Nat} {character : Char} {rest : List Char}
    (left : text.drop offset = character :: rest) :
    (ofOffset text offset).after character rest.head? = ofOffset text (offset + 1) := by
  have here : text[offset]? = some character := by
    rw [← List.head?_drop, left, List.head?_cons]
  have next : text[offset + 1]? = rest.head? := by
    rw [← List.head?_drop, ← List.tail_drop, left, List.tail_cons]
  have same : endsRow text offset = true ↔
      character = '\n' ∨ (character = '\r' ∧ rest.head? ≠ some '\n') := by
    simp [endsRow, here, next]
  rw [of_offset_succ]
  unfold after
  simp only [same]

theorem of_offset_lt_succ (text : List Char) (offset : Nat) :
    ofOffset text offset < ofOffset text (offset + 1) := by
  rw [of_offset_succ]
  cases endsRow text offset with
  | true => constructor <;> simp [le_iff, nextLine]
  | false => constructor <;> simp [le_iff, shifted]

theorem of_offset_mono (text : List Char) {first second : Nat} (order : first ≤ second) :
    ofOffset text first ≤ ofOffset text second := by
  induction order with
  | refl => exact le_refl _
  | step _ ih => exact le_trans ih (of_offset_lt_succ text _).1

theorem of_offset_strict (text : List Char) {first second : Nat} (order : first < second) :
    ofOffset text first < ofOffset text second :=
  lt_of_lt_of_le (of_offset_lt_succ text first) (of_offset_mono text order)

end Position

namespace Reading

/-- The walk over a text when it has come to an offset. -/
def ofOffset (text : List Char) (offset : Nat) : Reading :=
  ⟨Position.ofOffset text offset, text.drop offset⟩

theorem of_offset_zero (text : List Char) : ofOffset text 0 = ⟨.start, text⟩ := rfl

theorem advance_of_offset {text : List Char} {offset count : Nat}
    (bound : offset + count ≤ text.length) :
    (ofOffset text offset).advance count = ofOffset text (offset + count) := by
  induction count generalizing offset with
  | zero => rfl
  | succ count ih =>
      have inside : offset < text.length := by omega
      have left := List.drop_eq_getElem_cons inside
      have step : (ofOffset text offset).advance (count + 1) =
          (ofOffset text (offset + 1)).advance count := by
        simp only [ofOffset, advance, ← Position.after_of_offset left]
        rw [left, Position.walk]
      rw [step, ih (by omega), Nat.add_right_comm, Nat.add_assoc]

end Reading

theorem Position.ending_eq_of_offset (text : List Char) :
    Position.ending text = Position.ofOffset text text.length := by
  have whole : (Reading.ofOffset text 0).advance text.length = _ :=
    Reading.advance_of_offset (by omega)
  rw [Reading.of_offset_zero, Nat.zero_add] at whole
  exact congrArg Reading.position whole

namespace Lexeme

/-- Code of the report about a character that begins no token. -/
abbrev strayCode : String := "TOK1003"

/-- Reports about lexemes that are tokens all the same. -/
def isTokenFault : DiagnosticKind → Bool
  | .unterminatedString | .invalidEscape _ | .invalidNumber _ | .invalidChar => true
  | _ => false

theorem stray_iff {kind : DiagnosticKind} :
    kind.code = strayCode ↔ ∃ character, kind = .unexpectedCharacter character := by
  cases kind <;> simp [DiagnosticKind.code, strayCode]

theorem code_of_token_fault {kind : DiagnosticKind} (fault : isTokenFault kind = true) :
    kind.code ≠ strayCode := by
  intro stray
  obtain ⟨character, rfl⟩ := stray_iff.mp stray
  cases fault

/-- What every lexeme at the front of a text is like: not empty, within the text,
and either a token or one stray character that is reported. -/
structure Fits (text : List Char) (lexeme : Lexeme) : Prop where
  filled : 0 < lexeme.length
  within : lexeme.length ≤ text.length
  shown : (∃ kind, lexeme.meaning = some kind ∧ kind ≠ .endOfFile ∧
      ∀ fault ∈ lexeme.faults, isTokenFault fault.kind = true) ∨
    (lexeme.meaning = none ∧ lexeme.length = 1 ∧
      ∃ character, lexeme.faults = [⟨.unexpectedCharacter character, 0, 1⟩])

variable {text : List Char}

theorem fits_plain {length : Nat} {kind : TokenKind} (filled : 0 < length)
    (within : length ≤ text.length) (going : kind ≠ .endOfFile) :
    Fits text (plain length kind) :=
  ⟨filled, within, .inl ⟨kind, rfl, going, by simp [plain]⟩⟩

theorem read_quoted_bounds (quote : Char) (spansRows : Bool) (offset : Nat) (rest : List Char) :
    offset ≤ (Text.readQuoted quote spansRows offset rest).stop ∧
      (Text.readQuoted quote spansRows offset rest).stop ≤ offset + rest.length := by
  induction offset, rest using Text.readQuoted.induct quote spansRows with
  | case1 offset => simp [Text.readQuoted]
  | case2 offset => simp [Text.readQuoted]
  | case3 offset letter rest character found ih =>
      simp only [Text.readQuoted, found, Text.QuotedBody.push, List.length_cons]
      omega
  | case4 offset letter rest found ih =>
      simp only [Text.readQuoted, found, Text.QuotedBody.pushUnknown, List.length_cons]
      omega
  | case5 offset rest single escape =>
      rw [Text.readQuoted.eq_4 _ _ _ _ _ single escape, if_pos rfl]
      simp only [List.length_cons]
      omega
  | case6 offset character rest single escape open_ stops =>
      rw [Text.readQuoted.eq_4 _ _ _ _ _ single escape, if_neg open_, if_pos stops]
      exact ⟨Nat.le_refl _, Nat.le_add_right _ _⟩
  | case7 offset character rest single escape open_ stays ih =>
      rw [Text.readQuoted.eq_4 _ _ _ _ _ single escape, if_neg open_, if_neg stays]
      simp only [Text.QuotedBody.push, List.length_cons]
      omega

theorem escape_faults_kind (body : Text.QuotedBody) :
    ∀ fault ∈ escapeFaults body, isTokenFault fault.kind = true := by
  intro fault member
  simp only [escapeFaults, List.mem_map] at member
  obtain ⟨entry, -, rfl⟩ := member
  rfl

theorem fits_string (quote : Char) (rest : List Char) : Fits (quote :: rest) (readString rest) := by
  obtain ⟨lower, upper⟩ := read_quoted_bounds Text.stringQuote true 1 rest
  refine ⟨lower, ?_, .inl ⟨_, rfl, by simp, ?_⟩⟩
  · simp only [readString, List.length_cons]
    omega
  · intro fault member
    simp only [readString, List.mem_append] at member
    obtain member | member := member
    · exact escape_faults_kind _ fault member
    · split at member
      · cases member
      · rw [List.mem_singleton] at member
        subst member
        rfl

theorem fits_char (quote : Char) (rest : List Char) : Fits (quote :: rest) (readChar rest) := by
  obtain ⟨lower, upper⟩ := read_quoted_bounds Text.charQuote false 1 rest
  unfold readChar
  dsimp only
  split
  · refine ⟨lower, ?_, .inl ⟨_, rfl, by simp, escape_faults_kind _⟩⟩
    simp only [List.length_cons]
    omega
  · refine ⟨lower, ?_, .inl ⟨_, rfl, by simp, ?_⟩⟩
    · simp only [List.length_cons]
      omega
    · intro fault member
      rw [List.mem_append, List.mem_singleton] at member
      obtain member | rfl := member
      · exact escape_faults_kind _ fault member
      · rfl

theorem number_lexeme_length_le (seenPoint : Bool) (text : List Char) :
    (Number.lexeme seenPoint text).length ≤ text.length := by
  induction text generalizing seenPoint with
  | nil => simp [Number.lexeme]
  | cons character rest ih =>
      unfold Number.lexeme
      split
      · simpa using ih seenPoint
      · split
        · simpa using ih true
        · simp

theorem fits_number {first : Char} (rest : List Char) (digit : Text.isAsciiDigit first = true) :
    Fits (first :: rest) (readNumber (first :: rest)) := by
  have within := number_lexeme_length_le false (first :: rest)
  have filled : 0 < (Number.lexeme false (first :: rest)).length := by
    rw [Number.lexeme, Text.alphanumeric_of_digit digit, Bool.true_or, if_pos rfl]
    exact Nat.succ_pos _
  unfold readNumber
  dsimp only
  split
  · exact fits_plain filled within (by simp)
  · refine ⟨filled, within, .inl ⟨_, rfl, by simp, ?_⟩⟩
    intro fault member
    rw [List.mem_singleton] at member
    subst member
    rfl

/-- A run that begins at the front of a text. -/
theorem fits_run {kind : TokenKind} {taken : Char → Bool} {first : Char} (rest : List Char)
    (begins : taken first = true) (going : kind ≠ .endOfFile) :
    Fits (first :: rest) (plain ((first :: rest).takeWhile taken).length kind) := by
  refine fits_plain ?_ (List.takeWhile_sublist _).length_le going
  rw [List.takeWhile_cons, if_pos begins, List.length_cons]
  exact Nat.succ_pos _

theorem word_meaning_going : ∀ word : String, wordMeaning word ≠ .endOfFile :=
  word_meaning_apart (by simp) (by simp) (by simp)

theorem leading_bounds {text : List Char} {length : Nat} {spelt : Operator}
    (found : Operator.leading? text = some (length, spelt)) :
    0 < length ∧ length ≤ text.length := by
  simp only [Operator.leading?, Option.map_eq_some_iff, Prod.mk.injEq] at found
  obtain ⟨entry, located, rfl, -⟩ := found
  have begins := List.find?_some located
  have member := List.mem_of_find?_eq_some located
  refine ⟨?_, ?_⟩
  · have all : ∀ entry ∈ Operator.spellings, 0 < entry.1.length := by decide
    exact all entry member
  · exact (List.isPrefixOf_iff_prefix.mp begins).length_le

theorem fits_symbol (first : Char) (rest : List Char) :
    Fits (first :: rest) (readSymbol first (first :: rest)) := by
  unfold readSymbol
  split
  · exact fits_plain Nat.one_pos (by simp) (by simp)
  · split
    · rename_i length spelt found
      obtain ⟨filled, within⟩ := leading_bounds found
      exact fits_plain filled within (by simp)
    · exact ⟨Nat.one_pos, by simp, .inr ⟨rfl, rfl, first, rfl⟩⟩

theorem fits_line_end {first : Char} (rest : List Char) :
    Fits (first :: rest) (plain (if rest.head? = some '\n' then 2 else 1) .endOfLine) := by
  cases rest with
  | nil => exact fits_plain (by simp) (by simp) (by simp)
  | cons next rest => exact fits_plain (by split <;> simp) (by split <;> simp) (by simp)

/-- One case for each way in which a lexeme can begin. -/
theorem fits_read (first : Char) (rest : List Char) :
    Fits (first :: rest) (read first rest) := by
  unfold read
  dsimp only
  split
  · exact fits_plain Nat.one_pos (by simp) (by simp)
  rename_i solid
  split
  · exact fits_line_end rest
  rename_i still
  split
  · have inline : isInlineBlank first = true := by
      rw [isInlineBlank, Text.isLineBreak, beq_false_of_ne solid, beq_false_of_ne still]
      simpa using ‹Text.isBlank first = true›
    exact fits_run rest inline (by simp)
  split
  · rename_i slashes
    exact fits_run rest (by rw [slashes.1]; decide) (by simp)
  split
  · exact fits_plain Nat.one_pos (by simp) (by simp)
  split
  · exact fits_string first rest
  split
  · exact fits_char first rest
  split
  · exact fits_number rest ‹_›
  split
  · exact fits_run rest (word_part_of_start ‹_›) (word_meaning_going _)
  · exact fits_symbol first rest

theorem fits_indentation {length : Nat} (found : indentationLength? text = some length) :
    Fits text (plain length .indentation) := by
  unfold indentationLength? at found
  split at found
  · obtain rfl := Option.some.inj found
    exact fits_plain (by simp) (by simp) (by simp)
  · obtain rfl := Option.some.inj found
    exact fits_plain (by simp) (by simp) (by simp)
  · cases found

/-- Lexemes that follow each other from the front of a text to its end. -/
inductive Covers : List Char → List Lexeme → Prop
  | nil {text : List Char} (empty : text = []) : Covers text []
  | cons {text : List Char} {lexeme : Lexeme} {lexemes : List Lexeme} (fits : Fits text lexeme)
      (rest : Covers (text.drop lexeme.length) lexemes) : Covers text (lexeme :: lexemes)

theorem covers_read_all {budget : Nat} (rowStart : Bool) (enough : text.length ≤ budget) :
    Covers text (readAll budget rowStart text) := by
  induction budget generalizing rowStart text with
  | zero =>
      rw [Nat.le_zero, List.length_eq_zero_iff] at enough
      subst enough
      exact .nil rfl
  | succ budget ih =>
      cases text with
      | nil => exact .nil rfl
      | cons first rest =>
          have enter : ∀ {lexeme : Lexeme}, Fits (first :: rest) lexeme → ∀ rowStart,
              Covers ((first :: rest).drop lexeme.length)
                (readAll budget rowStart ((first :: rest).drop lexeme.length)) := by
            intro lexeme fits rowStart
            refine ih rowStart ?_
            have filled := fits.filled
            rw [List.length_drop]
            omega
          unfold readAll
          split
          · rename_i length found
            have fits : Fits (first :: rest) (plain length .indentation) := by
              split at found
              · exact fits_indentation found
              · cases found
            exact .cons fits (enter fits true)
          · exact .cons (fits_read first rest) (enter (fits_read first rest) _)

theorem covers_of_text (text : List Char) : Covers text (ofText text) :=
  covers_read_all true (Nat.le_refl _)

end Lexeme

namespace Tokenized

/-- Spans that lead through a text from one offset to its end. -/
inductive Leads (text : List Char) : Nat → List Span → Prop
  | done : Leads text text.length []
  | step {first next : Nat} {span : Span} {spans : List Span} (filled : first < next)
      (within : next ≤ text.length) (start : span.start = .ofOffset text first)
      (stop : span.stop = .ofOffset text next) (rest : Leads text next spans) :
      Leads text first (span :: spans)

/-- Spans that are in order and cover a text without a gap, each from one
character to another. -/
structure Tiles (text : List Char) (spans : List Span) : Prop where
  filled : ∀ span ∈ spans, span.start < span.stop
  begins : (spans.head?.map Span.start).getD (.ofOffset text text.length) = .start
  joined : spans.IsChain fun first second => first.stop = second.start
  ends : (spans.getLast?.map Span.stop).getD .start = .ofOffset text text.length
  placed : ∀ span ∈ spans, ∃ first next, first < next ∧ next ≤ text.length ∧
    span.start = .ofOffset text first ∧ span.stop = .ofOffset text next

section Leads

variable {text : List Char} {first : Nat} {spans : List Span}

theorem begins_of_leads (leads : Leads text first spans) :
    (spans.head?.map Span.start).getD (.ofOffset text text.length) = .ofOffset text first := by
  cases leads with
  | done => rfl
  | step filled within start stop rest => exact start

theorem ends_of_leads (leads : Leads text first spans) :
    (spans.getLast?.map Span.stop).getD (.ofOffset text first) = .ofOffset text text.length := by
  induction leads with
  | done => rfl
  | step filled within start stop rest ih =>
      cases rest with
      | done => exact stop
      | step => exact ih

theorem joined_of_leads (leads : Leads text first spans) :
    spans.IsChain fun first second => first.stop = second.start := by
  induction leads with
  | done => exact .nil
  | step filled within start stop rest ih =>
      cases rest with
      | done => exact .singleton _
      | step => exact .cons_cons (stop.trans (by assumption : _ = _).symm) ih

theorem placed_of_leads (leads : Leads text first spans) :
    ∀ span ∈ spans, ∃ first next, first < next ∧ next ≤ text.length ∧
      span.start = .ofOffset text first ∧ span.stop = .ofOffset text next := by
  induction leads with
  | done => intro span member; cases member
  | step filled within start stop rest ih =>
      intro span member
      obtain rfl | member := List.mem_cons.mp member
      · exact ⟨_, _, filled, within, start, stop⟩
      · exact ih span member

theorem filled_of_leads (leads : Leads text first spans) :
    ∀ span ∈ spans, span.start < span.stop := by
  intro span member
  obtain ⟨first, next, order, -, start, stop⟩ := placed_of_leads leads span member
  rw [start, stop]
  exact Position.of_offset_strict text order

theorem tiles_of_leads (leads : Leads text 0 spans) : Tiles text spans where
  filled := filled_of_leads leads
  begins := begins_of_leads leads
  joined := joined_of_leads leads
  ends := ends_of_leads leads
  placed := placed_of_leads leads

theorem le_start_of_leads (leads : Leads text first spans) :
    ∀ span ∈ spans, Position.ofOffset text first ≤ span.start := by
  induction leads with
  | done => intro span member; cases member
  | step filled within start stop rest ih =>
      intro span member
      obtain rfl | member := List.mem_cons.mp member
      · rw [start]
        exact Position.le_refl _
      · exact Position.le_trans (Position.of_offset_strict text filled).1 (ih span member)

theorem sorted_of_leads (leads : Leads text first spans) :
    spans.Pairwise fun earlier later => earlier.start < later.start := by
  induction leads with
  | done => exact .nil
  | step filled within start stop rest ih =>
      refine List.pairwise_cons.mpr ⟨fun span member => ?_, ih⟩
      rw [start]
      exact Position.lt_of_lt_of_le (Position.of_offset_strict text filled)
        (le_start_of_leads rest span member)

/-- Spans with different starts have only one order. -/
theorem merge_sort_of_leads {found : List Span} (leads : Leads text first spans)
    (same : found.Perm spans) :
    (found.mergeSort fun earlier later => earlier.start ≤ later.start) = spans := by
  have sorted := sorted_of_leads leads
  have ordered := @List.pairwise_mergeSort _
    (fun earlier later : Span => decide (earlier.start ≤ later.start))
    (fun _ _ _ lower upper => decide_eq_true
      (Position.le_trans (of_decide_eq_true lower) (of_decide_eq_true upper)))
    (fun one other => by simpa using Position.le_total one.start other.start) found
  refine List.Perm.eq_of_pairwise ?_ (ordered.imp of_decide_eq_true) (sorted.imp And.left)
    ((List.mergeSort_perm _ _).trans same)
  intro earlier later member listed lower upper
  have among : earlier ∈ spans := same.mem_iff.mp ((List.mergeSort_perm _ _).mem_iff.mp member)
  have apart : (spans.map Span.start).Nodup :=
    List.pairwise_map.mpr (sorted.imp fun {_ other} before equal =>
      before.2 (by rw [equal]; exact Position.le_refl other.start))
  exact List.inj_on_of_nodup_map apart among listed (Position.le_antisymm lower upper)

end Leads

def isProper (token : Token) : Bool := token.kind != .endOfFile

def isStray (found : Diagnostic) : Bool := found.kind.code == Lexeme.strayCode

/-- Spans of all tokens but the end of the file, and of the reports about stray
characters. -/
def found (read : Tokenized) : List Span :=
  (read.tokens.filter isProper).map Token.span ++
    (read.diagnostics.filter isStray).map Diagnostic.span

/-- What was found in the order of its starts. -/
def pieces (read : Tokenized) : List Span :=
  read.found.mergeSort fun earlier later => earlier.start ≤ later.start

section Reading

variable (fileName : String) {text : List Char}

/-- A lexeme gives one span, either for its token or for its stray character. -/
theorem found_of_fits {reading : Reading} {lexeme : Lexeme} (lexemes : List Lexeme)
    (fits : Lexeme.Fits reading.text lexeme) :
    (locate fileName reading (lexeme :: lexemes)).found.Perm
      (reading.span lexeme.length ::
        (locate fileName (reading.advance lexeme.length) lexemes).found) := by
  obtain ⟨kind, meaning, going, others⟩ | ⟨meaning, length, character, faults⟩ := fits.shown
  · have proper : isProper ⟨kind, reading.span lexeme.length⟩ = true := bne_iff_ne.mpr going
    have none : (lexeme.faults.map fun fault => Diagnostic.mk fault.kind
        ((reading.advance fault.start).span (fault.stop - fault.start)) fileName).filter
          isStray = [] := by
      rw [List.filter_eq_nil_iff]
      intro report member
      obtain ⟨fault, listed, rfl⟩ := List.mem_map.mp member
      simpa [isStray] using Lexeme.code_of_token_fault (others fault listed)
    simp only [found, locate, meaning, Option.map_some, Option.toList_some, List.filter_append,
      none, List.nil_append, List.filter_cons_of_pos proper, List.map_cons,
      List.cons_append]
    exact .refl _
  · have stray : isStray ⟨.unexpectedCharacter character, reading.span 1, fileName⟩ = true := rfl
    simp only [found, locate, meaning, length, faults, Option.map_none, Option.toList_none,
      List.nil_append, List.map_cons, List.map_nil, List.singleton_append]
    rw [show (reading.advance 0).span (1 - 0) = reading.span 1 from rfl,
      List.filter_cons_of_pos stray, List.map_cons]
    exact List.perm_middle

theorem locate_leads {offset : Nat} {lexemes : List Lexeme} (bound : offset ≤ text.length)
    (covers : Lexeme.Covers (text.drop offset) lexemes) :
    ∃ spans, Leads text offset spans ∧
      (locate fileName (.ofOffset text offset) lexemes).found.Perm spans := by
  induction lexemes generalizing offset with
  | nil =>
      cases covers with
      | nil empty =>
          obtain rfl := Nat.le_antisymm bound (List.drop_eq_nil_iff.mp empty)
          exact ⟨[], .done, .refl _⟩
  | cons lexeme lexemes ih =>
      cases covers with
      | cons fits rest =>
          have filled := fits.filled
          have within := fits.within
          rw [List.length_drop] at within
          have inside : offset + lexeme.length ≤ text.length := by omega
          rw [List.drop_drop] at rest
          obtain ⟨spans, leads, same⟩ := ih inside rest
          have forward := Reading.advance_of_offset inside
          rw [← forward] at same
          exact ⟨_, .step (Nat.lt_add_of_pos_right filled) inside rfl
            (congrArg Reading.position forward) leads,
            (found_of_fits fileName lexemes fits).trans (same.cons _)⟩

theorem locate_tokens {offset : Nat} {lexemes : List Lexeme} (bound : offset ≤ text.length)
    (covers : Lexeme.Covers (text.drop offset) lexemes) :
    ∃ proper, (locate fileName (.ofOffset text offset) lexemes).tokens =
        proper ++ [⟨.endOfFile, .point (.ofOffset text text.length)⟩] ∧
      ∀ token ∈ proper, token.kind ≠ .endOfFile := by
  induction lexemes generalizing offset with
  | nil =>
      cases covers with
      | nil empty =>
          obtain rfl := Nat.le_antisymm bound (List.drop_eq_nil_iff.mp empty)
          exact ⟨[], rfl, by simp⟩
  | cons lexeme lexemes ih =>
      cases covers with
      | cons fits rest =>
          have within := fits.within
          rw [List.length_drop] at within
          have inside : offset + lexeme.length ≤ text.length := by omega
          rw [List.drop_drop] at rest
          obtain ⟨proper, tokens, going⟩ := ih inside rest
          simp only [locate]
          rw [Reading.advance_of_offset inside, tokens, ← List.append_assoc]
          refine ⟨_, rfl, fun token member => ?_⟩
          obtain own | later := List.mem_append.mp member
          · simp only [Option.mem_toList, Option.map_eq_some_iff] at own
            obtain ⟨kind, meaning, rfl⟩ := own
            obtain ⟨_, same, going, -⟩ | ⟨none, -, -⟩ := fits.shown
            · obtain rfl := Option.some.inj (meaning.symm.trans same)
              exact going
            · rw [none] at meaning
              cases meaning
          · exact going token later

end Reading

/-- No token of a text but the last one is the end of the file. -/
theorem closed_of_text (text fileName : String) : ∃ proper,
    (ofText text fileName).sequence.tokens.toList =
        proper ++ [⟨.endOfFile, .point (.ofOffset text.toList text.toList.length)⟩] ∧
      ∀ token ∈ proper, token.kind ≠ .endOfFile := by
  have covers := Lexeme.covers_of_text text.toList
  obtain ⟨proper, tokens, going⟩ := locate_tokens fileName (Nat.zero_le _) covers
  refine ⟨proper, ?_, going⟩
  rw [tokens_of_text]
  exact tokens

/-- Every token but the end of the file takes some of the text. -/
theorem filled_of_text (text fileName : String) {token : Token}
    (member : token ∈ (ofText text fileName).tokens) (going : token.kind ≠ .endOfFile) :
    token.span.start < token.span.stop := by
  have covers := Lexeme.covers_of_text text.toList
  obtain ⟨spans, leads, same⟩ := locate_leads fileName (Nat.zero_le _) covers
  refine filled_of_leads leads _ (same.mem_iff.mp (List.mem_append_left _ ?_))
  exact List.mem_map_of_mem (List.mem_filter.mpr ⟨member, bne_iff_ne.mpr going⟩)

theorem laid_out_of_text (text fileName : String) :
    (ofText text fileName).sequence.LaidOut (Position.ending text.toList) := by
  obtain ⟨inside, apart, -⟩ :=
    locate_spans fileName ⟨.start, text.toList⟩ (Lexeme.ofText text.toList)
  apply TokenSequence.laid_out_of_list
  · rw [tokens_of_text]
    exact apart
  · rw [tokens_of_text]
    exact fun token member => (inside token member).2
  · rw [tokens_of_text]
    exact fun token => filled_of_text text fileName

end Tokenized

end ModuleLang
