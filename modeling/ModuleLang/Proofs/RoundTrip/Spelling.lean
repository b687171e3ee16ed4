import ModuleLang.Proofs.RoundTrip.Rendering
import ModuleLang.Proofs.Token.Letter

/-!
The texts of single tokens. A token that has a text is read back from it, as a
whole and without a fault, wherever a space or the end of the text follows.
-/

namespace ModuleLang

open ModuleLang.Text ModuleLang.Decimal

/-- A space or the end of the text, where every lexeme ends. -/
def IsParted (rest : List Char) : Prop := ∀ character ∈ rest.head?, character = ' '

theorem parted_cases {rest : List Char} (parted : IsParted rest) :
    rest = [] ∨ ∃ more, rest = ' ' :: more := by
  cases rest with
  | nil => exact Or.inl rfl
  | cons character more => exact Or.inr ⟨more, by rw [parted character rfl]⟩

/-- A token whose text is read as this token and nothing else. -/
def TokenKind.IsSpelled (kind : TokenKind) : Prop :=
  ∃ first body, kind.text.toList = first :: body ∧ isBlank first = false ∧
    ∀ rest, IsParted rest → Lexeme.read first (body ++ rest) = .plain (body.length + 1) kind

namespace Lexeme

theorem take_while_word {body rest : List Char} (parts : ∀ character ∈ body, isWordPart character = true)
    (stops : ∀ next ∈ rest.head?, isWordPart next = false) :
    (body ++ rest).takeWhile isWordPart = body := by
  rw [List.takeWhile_append_of_pos parts]
  cases rest with
  | nil => simp
  | cons next rest => rw [List.takeWhile_cons_of_neg (by simp [stops next rfl]), List.append_nil]

/-- What begins like a word is read as one, up to what cannot be a part of it. -/
theorem read_word {first : Char} {body rest : List Char} (starts : isWordStart first = true)
    (parts : ∀ character ∈ first :: body, isWordPart character = true)
    (stops : ∀ next ∈ rest.head?, isWordPart next = false) :
    read first (body ++ rest) =
      .plain (body.length + 1) (wordMeaning (String.ofList (first :: body))) := by
  have solid : isBlank first = false := by
    by_contra blank
    rw [Bool.not_eq_false] at blank
    rw [not_word_start_of_blank blank] at starts
    cases starts
  have letter : isAsciiDigit first = false := by
    by_contra digit
    rw [Bool.not_eq_false] at digit
    have other : isWordStart first = false := of_digit digit (by decide)
    rw [other] at starts
    cases starts
  have apart : ∀ {character}, isWordStart character = false → first ≠ character := by
    rintro character other rfl
    rw [starts] at other
    cases other
  have whole : (first :: (body ++ rest)).takeWhile isWordPart = first :: body :=
    take_while_word parts stops
  rw [read, if_neg (apart (by decide)), if_neg (apart (by decide)), solid,
    if_neg Bool.false_ne_true, if_neg fun found => apart (by decide) found.1,
    if_neg (apart (by decide)), if_neg (apart (by decide)), if_neg (apart (by decide)), letter,
    if_neg Bool.false_ne_true, if_pos starts, readWord, whole, List.length_cons]

/-- No word goes on behind a space. -/
theorem word_stops {rest : List Char} (parted : IsParted rest) :
    ∀ next ∈ rest.head?, isWordPart next = false := by
  intro next member
  rw [parted next member]
  decide

theorem read_digit {first : Char} (digit : isAsciiDigit first = true) (rest : List Char) :
    read first rest = readNumber (first :: rest) := by
  have apart : ∀ {character}, isAsciiDigit character = false → first ≠ character := by
    rintro character other rfl
    rw [digit] at other
    cases other
  have solid : isBlank first = false := of_digit digit (by decide)
  rw [read, if_neg (apart (by decide)), if_neg (apart (by decide)), solid,
    if_neg Bool.false_ne_true, if_neg fun found => apart (by decide) found.1, if_neg (apart (by decide)),
    if_neg (apart (by decide)), if_neg (apart (by decide)), if_pos digit]

end Lexeme

namespace TokenKind

theorem spelled_punctuation (mark : Punctuation) : (punctuation mark).IsSpelled := by
  cases mark <;> exact ⟨_, _, rfl, rfl, fun _ _ => rfl⟩

theorem spelled_end : endOfStatement.IsSpelled := ⟨_, _, rfl, rfl, fun _ _ => rfl⟩

theorem spelled_operator (spelt : Operator) : (operator spelt).IsSpelled := by
  cases spelt <;> refine ⟨_, _, rfl, rfl, fun rest parted => ?_⟩ <;>
    obtain rfl | ⟨more, rfl⟩ := parted_cases parted <;> rfl

theorem spelled_of_word {kind : TokenKind} {first : Char} {body : List Char}
    (text : kind.text.toList = first :: body) (starts : Lexeme.isWordStart first = true)
    (parts : (first :: body).all Lexeme.isWordPart = true)
    (meaning : Lexeme.wordMeaning (String.ofList (first :: body)) = kind) : kind.IsSpelled := by
  refine ⟨first, body, text, ?_, fun rest parted => ?_⟩
  · by_contra blank
    rw [Bool.not_eq_false] at blank
    rw [Lexeme.not_word_start_of_blank blank] at starts
    cases starts
  · rw [Lexeme.read_word starts (List.all_eq_true.mp parts) (Lexeme.word_stops parted), meaning]

theorem spelled_keyword (reserved : Keyword) : (keyword reserved).IsSpelled := by
  cases reserved <;> exact spelled_of_word rfl rfl (by decide) rfl

theorem spelled_bool (value : Bool) : (literal (.bool value)).IsSpelled := by
  cases value <;> exact spelled_of_word rfl rfl (by decide) rfl

theorem spelled_null : (literal .null).IsSpelled :=
  spelled_of_word rfl rfl (by decide) rfl

theorem spelled_name {name : String} (named : isName name = true) : (word name).IsSpelled := by
  obtain ⟨first, body, text, starts, parts⟩ := name_letters named
  have same : String.ofList (first :: body) = name := by rw [← text, String.ofList_toList]
  exact spelled_of_word text starts parts (by rw [same, name_means named])

theorem lexeme_append {word rest : List Char} (parts : ∀ character ∈ word, isAlphanumeric character = true)
    (parted : IsParted rest) : Number.lexeme false (word ++ rest) = word := by
  induction word with
  | nil =>
      obtain rfl | ⟨more, rfl⟩ := parted_cases parted
      · rfl
      · rfl
  | cons first word ih =>
      rw [List.cons_append, Number.lexeme, parts first List.mem_cons_self, Bool.true_or, if_pos rfl,
        ih fun character member => parts character (List.mem_cons_of_mem _ member)]

theorem digit_of_mem {n : Nat} {character : Char} (member : character ∈ Nat.toDigits 10 n) :
    isAsciiDigit character = true := by
  have digit := Nat.isDigit_of_mem_toDigits (by decide) (by decide) member
  simpa [isAsciiDigit, Char.isDigit, Char.le_def] using digit

theorem digits_value (n : Nat) : digitsValue (Nat.toDigits 10 n) = n := by
  rw [digitsValue]
  exact (Nat.ofDigitChars_eq_foldl).symm.trans Nat.ofDigitChars_ten_toDigits

/-- A text falls apart in front of the letters that it ends in. -/
theorem split_append {body suffix : List Char}
    (letters : ∀ character ∈ suffix, isAsciiLetter character = true)
    (ended : ∀ last ∈ body.getLast?, isAsciiLetter last = false) :
    Number.split (body ++ suffix) = (body, suffix) := by
  have stops : ∀ first others, body.reverse = first :: others → isAsciiLetter first = false := by
    intro first others same
    apply ended
    rw [← List.head?_reverse, same]
    rfl
  have dropped : body.reverse.dropWhile isAsciiLetter = body.reverse := by
    cases last : body.reverse with
    | nil => rfl
    | cons first others => rw [List.dropWhile_cons_of_neg (by simp [stops first others last])]
  have taken : body.reverse.takeWhile isAsciiLetter = [] := by
    cases last : body.reverse with
    | nil => rfl
    | cons first others => rw [List.takeWhile_cons_of_neg (by simp [stops first others last])]
  have ends : ∀ character ∈ suffix.reverse, isAsciiLetter character = true :=
    fun character member => letters character (List.mem_reverse.mp member)
  rw [Number.split, List.reverse_append, List.dropWhile_append_of_pos ends,
    List.takeWhile_append_of_pos ends, dropped, taken, List.append_nil, List.reverse_reverse,
    List.reverse_reverse]

/-- Digits and a suffix of letters fall apart again. -/
theorem split_number {digits suffix : List Char} (isDigits : ∀ character ∈ digits, isAsciiDigit character = true)
    (letters : ∀ character ∈ suffix, isAsciiLetter character = true) :
    Number.split (digits ++ suffix) = (digits, suffix) :=
  split_append letters fun last member =>
    not_letter_of_digit (isDigits last (List.mem_of_getLast? member))

theorem spelled_number {value : Literal} {n : Nat} {suffix : List Char} {type : Ty}
    (text : value.text.toList = Nat.toDigits 10 n ++ suffix)
    (letters : suffix.all isAsciiLetter = true)
    (selected : ∀ body, Number.suffixType? body suffix = some type)
    (held : ∀ body, isDigits body = true → digitsValue body = n →
      Number.literal? type body = some value) : (literal value).IsSpelled := by
  have digits : ∀ character ∈ Nat.toDigits 10 n, isAsciiDigit character = true :=
    fun _ => digit_of_mem
  have letters := List.all_eq_true.mp letters
  have known := digits_value n
  have read : Number.read (Nat.toDigits 10 n ++ suffix) = .ok value := by
    rw [Number.read, split_number digits letters]
    simp only [selected]
    have plain : (Nat.toDigits 10 n).contains '_' = false := by
      simp [Nat.underscore_not_in_toDigits]
    rw [plain, Bool.or_false, List.isEmpty_eq_false_iff.mpr Nat.toDigits_ne_nil,
      if_neg Bool.false_ne_true, held _ (List.all_eq_true.mpr digits) known]
    rfl
  cases start : Nat.toDigits 10 n with
  | nil => exact absurd start Nat.toDigits_ne_nil
  | cons first body =>
      have digit : isAsciiDigit first = true := digits first (by simp [start])
      refine ⟨first, body ++ suffix, by rw [TokenKind.text, text, start]; rfl,
        of_digit digit (by decide), fun rest parted => ?_⟩
      have parts : ∀ character ∈ Nat.toDigits 10 n ++ suffix, isAlphanumeric character = true := by
        intro character member
        obtain inside | behind := List.mem_append.mp member
        · exact alphanumeric_of_digit (digits character inside)
        · exact alphanumeric_of_letter (letters character behind)
      have whole : first :: (body ++ suffix ++ rest) = Nat.toDigits 10 n ++ suffix ++ rest := by
        simp [start]
      rw [Lexeme.read_digit digit, whole, Lexeme.readNumber, lexeme_append parts parted, read, start]
      rfl

theorem of_natural {bound n : Nat} {body : List Char} (small : n < bound)
    (digits : isDigits body = true) (known : digitsValue body = n) :
    Number.natural? bound body = some n := by
  rw [Number.natural?, digits, known, Bool.true_and, decide_eq_true small, if_pos rfl]

theorem text_natural (n : Nat) (suffix : String) :
    (toString n ++ suffix).toList = Nat.toDigits 10 n ++ suffix.toList := by
  rw [String.toList_append, Nat.toString_eq_ofList_toDigits, String.toList_ofList]

/-- A non-negative number is shown like a natural one. -/
theorem text_integer {value : Int} (positive : 0 ≤ value) (suffix : String) :
    (toString value ++ suffix).toList = Nat.toDigits 10 value.toNat ++ suffix.toList := by
  obtain ⟨n, rfl⟩ := Int.eq_ofNat_of_zero_le positive
  exact text_natural n suffix

theorem spelled_int {value : Int32} (positive : 0 ≤ value.toInt) :
    (literal (.int value)).IsSpelled := by
  refine spelled_number (text_integer positive "i") (by decide) (fun _ => rfl)
    fun body digits known => ?_
  have small : value.toInt.toNat < 1 <<< 31 := by
    have upper := value.toInt_lt
    omega
  have same : Int32.ofNat value.toInt.toNat = value := by
    rw [← Int32.ofInt_eq_ofNat, Int.toNat_of_nonneg positive, Int32.ofInt_toInt]
  rw [Number.literal?, of_natural small digits known, Option.map_some, same]

theorem spelled_long {value : Int64} (positive : 0 ≤ value.toInt) :
    (literal (.long value)).IsSpelled := by
  refine spelled_number (text_integer positive "l") (by decide) (fun _ => rfl)
    fun body digits known => ?_
  have small : value.toInt.toNat < 1 <<< 63 := by
    have upper := value.toInt_lt
    omega
  have same : Int64.ofNat value.toInt.toNat = value := by
    rw [← Int64.ofInt_eq_ofNat, Int.toNat_of_nonneg positive, Int64.ofInt_toInt]
  rw [Number.literal?, of_natural small digits known, Option.map_some, same]

theorem spelled_uint (value : UInt32) : (literal (.uint value)).IsSpelled := by
  refine spelled_number (text_natural value.toNat "u") (by decide) (fun _ => rfl)
    fun body digits known => ?_
  rw [Number.literal?, of_natural value.toNat_lt_size digits known, Option.map_some,
    UInt32.ofNat_toNat]

theorem spelled_ulong (value : UInt64) : (literal (.ulong value)).IsSpelled := by
  refine spelled_number (text_natural value.toNat "ul") (by decide) (fun _ => rfl)
    fun body digits known => ?_
  rw [Number.literal?, of_natural value.toNat_lt_size digits known, Option.map_some,
    UInt64.ofNat_toNat]

theorem spelled_byte (value : UInt8) : (literal (.byte value)).IsSpelled := by
  refine spelled_number (text_natural value.toNat "b") (by decide) (fun _ => rfl)
    fun body digits known => ?_
  rw [Number.literal?, of_natural value.toNat_lt_size digits known, Option.map_some,
    UInt8.ofNat_toNat]

section Quoted

variable {quote : Char} {spansRows : Bool}

theorem read_escaped {letter character : Char} (stands : unescape? letter = some character)
    (offset : Nat) (rest : List Char) :
    readQuoted quote spansRows offset ('\\' :: letter :: rest) =
      (readQuoted quote spansRows (offset + 2) rest).push character := by
  rw [readQuoted]
  simp only [stands]

theorem read_plain {character : Char} (plain : character ≠ '\\') (open' : character ≠ quote)
    (inRow : isLineBreak character = false) (offset : Nat) (rest : List Char) :
    readQuoted quote spansRows offset (character :: rest) =
      (readQuoted quote spansRows (offset + 1) rest).push character := by
  rw [readQuoted, if_neg open', inRow, Bool.and_false, if_neg Bool.false_ne_true]
  · exact fun same => absurd same plain
  · exact fun _ _ same _ => absurd same plain

/-- A character between quotes is read back. -/
theorem read_encoded_char (isQuote : quote = stringQuote ∨ quote = charQuote) {character : Char}
    (quotable : isQuotable character = true) (offset : Nat) (rest : List Char) :
    readQuoted quote spansRows offset (encodeChar quote character ++ rest) =
      (readQuoted quote spansRows (offset + (encodeChar quote character).length) rest).push
        character := by
  unfold encodeChar
  split
  · rename_i other
    simp only [Bool.and_eq_true, Bool.or_eq_true, bne_iff_ne, beq_iff_eq] at other
    obtain ⟨open', rfl | rfl⟩ := other
    · exact read_plain (by decide) open' (by decide) offset rest
    · exact read_plain (by decide) open' (by decide) offset rest
  · rename_i kept
    cases found : escapeLetter? character with
    | some letter => exact read_escaped (unescape?_of_escapeLetter? found) offset rest
    | none =>
        have apart : ∀ {other}, (escapeLetter? other).isSome → character ≠ other := by
          rintro other known rfl
          rw [found] at known
          cases known
        simp only [isQuotable, found, Option.isSome_none, Bool.or_false, Bool.and_eq_true,
          decide_eq_true_eq] at quotable
        have shown : isEscaped character = false := by
          rw [isEscaped, if_pos (by omega)]
          simp only [Bool.or_eq_false_iff, decide_eq_false_iff_not, beq_eq_false_iff_ne]
          omega
        have inRow : isLineBreak character = false := by
          rw [isLineBreak, beq_eq_false_iff_ne.mpr (apart (by decide)),
            beq_eq_false_iff_ne.mpr (apart (by decide)), Bool.or_false]
        have open' : character ≠ quote := by
          obtain rfl | rfl := isQuote
          · exact apart (by decide)
          · exact apart (by decide)
        simp only [shown, if_neg Bool.false_ne_true]
        exact read_plain (apart (by decide)) open' inRow offset rest

theorem read_encoded (isQuote : quote = stringQuote ∨ quote = charQuote) {text : List Char}
    (quotable : ∀ character ∈ text, isQuotable character = true) (offset : Nat) (rest : List Char) :
    readQuoted quote spansRows offset (text.flatMap (encodeChar quote) ++ quote :: rest) =
      ⟨offset + (text.flatMap (encodeChar quote)).length + 1, text, [], true⟩ := by
  induction text generalizing offset with
  | nil =>
      have plain : quote ≠ '\\' := by
        obtain rfl | rfl := isQuote
        · decide
        · decide
      rw [List.flatMap_nil, List.nil_append, readQuoted, if_pos rfl]
      · rfl
      · exact fun same => absurd same plain
      · exact fun _ _ same _ => absurd same plain
  | cons first text ih =>
      rw [List.flatMap_cons, List.append_assoc,
        read_encoded_char isQuote (quotable first List.mem_cons_self),
        ih fun character member => quotable character (List.mem_cons_of_mem _ member)]
      simp only [QuotedBody.push, List.length_append, Nat.add_assoc]

end Quoted

theorem spelled_string {value : String} (quotable : value.toList.all isQuotable = true) :
    (literal (.string value)).IsSpelled := by
  refine ⟨stringQuote, value.toList.flatMap (encodeChar stringQuote) ++ [stringQuote], ?_, rfl,
    fun rest _ => ?_⟩
  · rw [TokenKind.text, Literal.text, quotedString, String.toList_ofList]
    rfl
  · have body := @read_encoded _ true (Or.inl rfl) _ (List.all_eq_true.mp quotable) 1 rest
    rw [List.append_assoc]
    change Lexeme.readString _ = _
    rw [Lexeme.readString, List.singleton_append, body]
    simp [Lexeme.plain, Lexeme.escapeFaults, Nat.add_comm]

theorem spelled_char {value : Char} (quotable : isQuotable value = true) :
    (literal (.char value)).IsSpelled := by
  refine ⟨charQuote, encodeChar charQuote value ++ [charQuote], ?_, rfl, fun rest _ => ?_⟩
  · rw [TokenKind.text, Literal.text, quotedChar, String.toList_ofList]
    simp [encode]
  · have body := @read_encoded _ false (Or.inr rfl) [value] (by simpa using quotable) 1 rest
    rw [List.flatMap_singleton] at body
    rw [List.append_assoc]
    change Lexeme.readChar _ = _
    rw [Lexeme.readChar, List.singleton_append, body]
    simp [Lexeme.plain, Lexeme.escapeFaults, Nat.add_comm]

theorem spelled_literal {value : Literal} (writable : value.isWritable = true) :
    (literal value).IsSpelled := by
  cases value with
  | int value => exact spelled_int (of_decide_eq_true writable)
  | long value => exact spelled_long (of_decide_eq_true writable)
  | uint value => exact spelled_uint value
  | ulong value => exact spelled_ulong value
  | byte value => exact spelled_byte value
  | bool value => exact spelled_bool value
  | null => exact spelled_null
  | string value => exact spelled_string writable
  | char value => exact spelled_char writable
  | float bits => cases writable
  | double bits => cases writable

end TokenKind

end ModuleLang
