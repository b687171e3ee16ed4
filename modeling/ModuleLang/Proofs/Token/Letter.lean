import ModuleLang.Token.Lexeme

/-!
Classes of characters. Digits and letters may stand in words and numbers, and no
blank begins a word. Where a class is a table of few characters, what holds of it
is checked for each of their codes.
-/

namespace ModuleLang

namespace Text

/-- A property of some characters that is checked for each of their codes. -/
theorem of_code {codes : List Nat} {property : Char → Bool}
    (each : ∀ code ∈ codes, property (Char.ofNat code) = false) {character : Char}
    (listed : character.toNat ∈ codes) : property character = false := by
  have held := each _ listed
  rwa [Char.ofNat_toNat] at held

theorem digit_code {character : Char} (digit : isAsciiDigit character = true) :
    0x30 ≤ character.toNat ∧ character.toNat ≤ 0x39 := by
  simp only [isAsciiDigit, Bool.and_eq_true, decide_eq_true_eq, Char.le_def] at digit
  exact digit

/-- A property that no digit has. -/
theorem of_digit {property : Char → Bool} {character : Char} (digit : isAsciiDigit character = true)
    (each : ∀ code ∈ [0x30, 0x31, 0x32, 0x33, 0x34, 0x35, 0x36, 0x37, 0x38, 0x39],
      property (Char.ofNat code) = false) : property character = false := by
  refine of_code each ?_
  have code := digit_code digit
  simp only [List.mem_cons, List.not_mem_nil, or_false]
  omega

theorem alphanumeric_of_letter {character : Char} (letter : isAsciiLetter character = true) :
    isAlphanumeric character = true := by
  have small : character.toNat < 128 := by
    simp only [isAsciiLetter, Bool.or_eq_true, Bool.and_eq_true, decide_eq_true_eq,
      Char.le_def] at letter
    change character.val.toNat < 128
    have upper : character.val ≤ 'z'.val ∨ character.val ≤ 'Z'.val := letter.imp And.right And.right
    obtain bound | bound := upper
    · exact Nat.lt_of_le_of_lt bound (by decide)
    · exact Nat.lt_of_le_of_lt bound (by decide)
  rw [isAlphanumeric, isAlphabetic, if_pos small, letter, Bool.true_or]

theorem alphanumeric_of_digit {character : Char} (digit : isAsciiDigit character = true) :
    isAlphanumeric character = true := by
  have small : character.toNat < 128 := by
    have code := digit_code digit
    omega
  rw [isAlphanumeric, isNumeric, if_pos small, digit, Bool.or_true]

theorem not_letter_of_digit {character : Char} (digit : isAsciiDigit character = true) :
    isAsciiLetter character = false :=
  of_digit digit (by decide)

end Text

namespace Lexeme

open ModuleLang.Text

theorem word_part_of_start {character : Char} (starts : isWordStart character = true) :
    isWordPart character = true := by
  simp only [isWordStart, isWordPart, isAlphanumeric, Bool.or_eq_true] at *
  exact starts.imp Or.inl id

theorem not_word_part_of_blank {character : Char} (blank : isBlank character = true) :
    isWordPart character = false := by
  have listed : character.toNat ∈ [0x9, 0xa, 0xb, 0xc, 0xd, 0x20, 0x85, 0xa0, 0x1680, 0x2000,
      0x2001, 0x2002, 0x2003, 0x2004, 0x2005, 0x2006, 0x2007, 0x2008, 0x2009, 0x200a, 0x2028,
      0x2029, 0x202f, 0x205f, 0x3000] := by
    simp only [isBlank, Bool.or_eq_true, Bool.and_eq_true, decide_eq_true_eq, beq_iff_eq] at blank
    simp only [List.mem_cons, List.not_mem_nil, or_false]
    omega
  exact of_code (by decide +kernel) listed

theorem not_word_start_of_blank {character : Char} (blank : isBlank character = true) :
    isWordStart character = false := by
  cases starts : isWordStart character with
  | false => rfl
  | true =>
      have part := word_part_of_start starts
      rw [not_word_part_of_blank blank] at part
      cases part

/-- A word is a literal, a keyword or a name. -/
theorem word_meaning_apart {kind : TokenKind} (literal : ∀ value, kind ≠ .literal value)
    (keyword : ∀ reserved, kind ≠ .keyword reserved) (name : ∀ name, kind ≠ .word name)
    (word : String) : wordMeaning word ≠ kind := by
  unfold wordMeaning
  split
  · exact (literal _).symm
  · exact (literal _).symm
  · exact (literal _).symm
  · split
    · exact (keyword _).symm
    · exact (name _).symm

end Lexeme

end ModuleLang
