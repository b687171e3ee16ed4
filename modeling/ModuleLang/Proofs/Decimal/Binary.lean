import Mathlib.Algebra.Order.Field.Power
import Mathlib.Data.Rat.Cast.Order
import Mathlib.Tactic.Linarith
import Mathlib.Tactic.Ring
import ModuleLang.Decimal.Binary

/-!
The numbers that a binary floating format has. They are the integers with so many binary
digits, times the powers of two between two exponents: each finite pattern stands for one,
and each of them has a pattern, since a short significand can be shifted until it is normal
or its exponent is the lowest.
-/

namespace ModuleLang.Decimal

/-- The number that a finite pattern stands for. -/
def BinaryNumber.number? : BinaryNumber → Option ℚ
  | finite negative significand exponent =>
      some ((if negative then -1 else 1) * significand * 2 ^ exponent)
  | _ => none

namespace BinaryFormat

variable {format : BinaryFormat} {number : ℚ}

/-- How many binary digits a significand has. -/
def digits (format : BinaryFormat) : Nat := format.fractionBits + 1

/-- Exponent of the last place of the largest numbers. -/
def highestExponent (format : BinaryFormat) : ℤ :=
  format.lowestExponent + 2 ^ format.exponentBits - 3

/-- The format has a number. -/
def Holds (format : BinaryFormat) (number : ℚ) : Prop :=
  ∃ significand exponent : ℤ, |significand| < 2 ^ format.digits ∧
    format.lowestExponent ≤ exponent ∧ exponent ≤ format.highestExponent ∧
    number = significand * 2 ^ exponent

/-- The pattern with given fields. -/
def pattern (format : BinaryFormat) (negative : Bool) (exponent fraction : Nat) : Nat :=
  (negative.toNat * 2 ^ format.exponentBits + exponent) * 2 ^ format.fractionBits + fraction

/-- A field below another one is split off. -/
theorem split_field (high : Nat) {low bound : Nat} (short : low < bound) :
    (high * bound + low) / bound = high ∧ (high * bound + low) % bound = low := by
  constructor
  · rw [Nat.add_comm, Nat.add_mul_div_right _ _ (by omega), Nat.div_eq_of_lt short, Nat.zero_add]
  · rw [Nat.mul_add_mod', Nat.mod_eq_of_lt short]

section Fields

variable {negative : Bool} {exponent fraction : Nat}

theorem pattern_lt (small : exponent < 2 ^ format.exponentBits)
    (short : fraction < 2 ^ format.fractionBits) :
    format.pattern negative exponent fraction <
      2 ^ (1 + format.exponentBits + format.fractionBits) := by
  have sign : negative.toNat ≤ 1 := Bool.toNat_le negative
  have upper : negative.toNat * 2 ^ format.exponentBits + exponent + 1 ≤
      2 ^ (1 + format.exponentBits) := by
    have most := Nat.mul_le_mul_right (2 ^ format.exponentBits) sign
    rw [Nat.pow_add]
    omega
  unfold pattern
  calc (negative.toNat * 2 ^ format.exponentBits + exponent) * 2 ^ format.fractionBits + fraction
      < (negative.toNat * 2 ^ format.exponentBits + exponent + 1) * 2 ^ format.fractionBits := by
        rw [Nat.add_mul _ 1]
        omega
    _ ≤ 2 ^ (1 + format.exponentBits) * 2 ^ format.fractionBits := Nat.mul_le_mul_right _ upper
    _ = 2 ^ (1 + format.exponentBits + format.fractionBits) := (Nat.pow_add _ _ _).symm

/-- Fields that make no infinity are read back. -/
theorem decode_pattern (small : exponent < 2 ^ format.exponentBits - 1)
    (short : fraction < 2 ^ format.fractionBits) :
    format.decode (format.pattern negative exponent fraction) =
      if exponent = 0 then .finite negative fraction format.lowestExponent
      else .finite negative (fraction + 2 ^ format.fractionBits)
        (format.lowestExponent + exponent - 1) := by
  have below : exponent < 2 ^ format.exponentBits := by omega
  obtain ⟨high, low⟩ := split_field (negative.toNat * 2 ^ format.exponentBits + exponent) short
  obtain ⟨sign, middle⟩ := split_field negative.toNat below
  unfold decode signBit pattern
  simp only [Nat.one_shiftLeft, Nat.shiftRight_eq_div_pow]
  rw [Nat.add_comm format.exponentBits, Nat.pow_add, ← Nat.div_div_eq_div_mul, low, high, middle,
    sign, if_neg (Nat.ne_of_lt small)]
  cases negative <;> rfl

end Fields

/-- What a pattern stands for, the format has. -/
theorem holds_of_decoded {bits : Nat} (wide : 2 ≤ format.exponentBits) (decoded : (format.decode bits).number? = some number) :
    format.Holds number := by
  have short : bits % 2 ^ format.fractionBits < 2 ^ format.fractionBits :=
    Nat.mod_lt _ (Nat.two_pow_pos _)
  have small : bits / 2 ^ format.fractionBits % 2 ^ format.exponentBits < 2 ^ format.exponentBits :=
    Nat.mod_lt _ (Nat.two_pow_pos _)
  -- The sign goes to the significand.
  have signed : ∀ {negative : Bool} {significand : Nat} {exponent : ℤ},
      significand < 2 ^ format.digits → format.lowestExponent ≤ exponent →
      exponent ≤ format.highestExponent →
      (BinaryNumber.finite negative significand exponent).number? = some number →
      format.Holds number := by
    intro negative significand exponent short lower upper same
    cases same
    have bound : (significand : ℤ) < 2 ^ format.digits := by exact_mod_cast short
    refine ⟨(if negative then -1 else 1) * significand, exponent, ?_, lower, upper, ?_⟩
    · cases negative <;> simpa using bound
    · cases negative <;> simp
  unfold decode at decoded
  simp only [Nat.one_shiftLeft, Nat.shiftRight_eq_div_pow] at decoded
  generalize bits % 2 ^ format.fractionBits = fraction at short decoded
  generalize bits / 2 ^ format.fractionBits % 2 ^ format.exponentBits = exponent at small decoded
  have width : ((2 ^ format.exponentBits : Nat) : ℤ) = 2 ^ format.exponentBits := by push_cast; rfl
  have room : 2 ^ 2 ≤ 2 ^ format.exponentBits := Nat.pow_le_pow_right Nat.two_pos wide
  have whole : 2 ^ format.digits = 2 ^ format.fractionBits + 2 ^ format.fractionBits := by
    unfold digits
    rw [Nat.pow_succ]
    omega
  split at decoded
  · split at decoded <;> cases decoded
  · rename_i finite
    split at decoded
    · refine signed (by omega) (le_refl _) ?_ decoded
      unfold highestExponent
      omega
    · refine signed (by omega) ?_ ?_ decoded
      · omega
      · unfold highestExponent
        omega

/-- A short significand is shifted until it is normal or its exponent is the lowest. -/
theorem exists_normal {bound : Nat} (significand place : Nat) (short : significand < 2 * bound) :
    ∃ shifted lower, shifted * 2 ^ lower = significand * 2 ^ place ∧ shifted < 2 * bound ∧
      lower ≤ place ∧ (bound ≤ shifted ∨ lower = 0) := by
  induction place generalizing significand with
  | zero => exact ⟨significand, 0, rfl, short, Nat.le_refl _, .inr rfl⟩
  | succ place ih =>
      by_cases normal : bound ≤ significand
      · exact ⟨significand, place + 1, rfl, short, Nat.le_refl _, .inl normal⟩
      · obtain ⟨shifted, lower, same, fits, less, ends⟩ := ih (2 * significand) (by omega)
        refine ⟨shifted, lower, ?_, fits, Nat.le_succ_of_le less, ends⟩
        rw [same, Nat.pow_succ]
        ring

/-- Shifting changes no number. -/
theorem shifted_number (base : ℤ) {significand : ℤ} {shifted lower place : Nat}
    (same : shifted * 2 ^ lower = significand.natAbs * 2 ^ place) :
    (if decide (significand < 0) then -1 else 1) * (shifted : ℚ) * 2 ^ (base + lower) =
      significand * 2 ^ (base + place) := by
  have cast : (shifted : ℚ) * 2 ^ lower = (significand.natAbs : ℚ) * 2 ^ place := by
    exact_mod_cast same
  have signed : (if decide (significand < 0) then -1 else 1) * (significand.natAbs : ℚ) =
      significand := by
    by_cases below : significand < 0
    · rw [decide_eq_true below, if_pos rfl, Nat.cast_natAbs, abs_of_neg below]
      push_cast
      ring
    · rw [decide_eq_false below, if_neg Bool.false_ne_true, Nat.cast_natAbs,
        abs_of_nonneg (not_lt.mp below), one_mul]
  rw [zpow_add₀ two_ne_zero, zpow_add₀ two_ne_zero, zpow_natCast, zpow_natCast]
  calc (if decide (significand < 0) then -1 else 1) * (shifted : ℚ) * (2 ^ base * 2 ^ lower)
      = (if decide (significand < 0) then -1 else 1) * (shifted * 2 ^ lower) * 2 ^ base := by ring
    _ = (if decide (significand < 0) then -1 else 1) * (significand.natAbs : ℚ) * 2 ^ place *
          2 ^ base := by rw [cast]; ring
    _ = significand * (2 ^ base * 2 ^ place) := by rw [signed]; ring

/-- A number of the format has a pattern. -/
theorem exists_pattern (holds : format.Holds number) :
    ∃ bits < 2 ^ (1 + format.exponentBits + format.fractionBits),
      (format.decode bits).number? = some number := by
  obtain ⟨significand, exponent, short, lower, upper, rfl⟩ := holds
  unfold highestExponent at upper
  have width : ((2 ^ format.exponentBits : Nat) : ℤ) = 2 ^ format.exponentBits := by push_cast; rfl
  have place : exponent = format.lowestExponent + (exponent - format.lowestExponent).toNat := by
    omega
  have fits : significand.natAbs < 2 * 2 ^ format.fractionBits := by
    rw [← Nat.pow_succ', ← Int.ofNat_lt, Int.natCast_natAbs]
    exact_mod_cast short
  obtain ⟨shifted, low, same, small, less, ends⟩ :=
    exists_normal significand.natAbs (exponent - format.lowestExponent).toNat fits
  have number := shifted_number format.lowestExponent same
  rw [← place] at number
  by_cases normal : 2 ^ format.fractionBits ≤ shifted
  · refine ⟨format.pattern (decide (significand < 0)) (low + 1)
      (shifted - 2 ^ format.fractionBits), pattern_lt (by omega) (by omega), ?_⟩
    rw [decode_pattern (by omega) (by omega), if_neg (Nat.succ_ne_zero low),
      Nat.sub_add_cancel normal, Nat.cast_succ, ← add_assoc, add_sub_cancel_right]
    exact congrArg some number
  · have lowest : low = 0 := ends.resolve_left normal
    subst lowest
    refine ⟨format.pattern (decide (significand < 0)) 0 shifted,
      pattern_lt (Nat.two_pow_pos _) (by omega), ?_⟩
    rw [decode_pattern (by omega) (by omega), if_pos rfl]
    rw [Nat.cast_zero, add_zero] at number
    exact congrArg some number

/-- The numbers of a format are what its patterns stand for. -/
theorem holds_iff (wide : 2 ≤ format.exponentBits) :
    format.Holds number ↔ ∃ bits < 2 ^ (1 + format.exponentBits + format.fractionBits),
      (format.decode bits).number? = some number := by
  constructor
  · exact exists_pattern
  · rintro ⟨bits, -, decoded⟩
    exact holds_of_decoded wide decoded

/-- An integer with few enough digits. -/
theorem holds_integer {value : ℤ} (short : |value| < 2 ^ format.digits)
    (lower : format.lowestExponent ≤ 0) (upper : 0 ≤ format.highestExponent) :
    format.Holds value :=
  ⟨value, 0, short, lower, upper, by simp⟩

/-- The first integer that needs more digits. -/
theorem not_holds_successor : ¬ format.Holds (2 ^ format.digits + 1) := by
  rintro ⟨significand, exponent, short, -, -, same⟩
  have bound : |(significand : ℚ)| < 2 ^ format.digits := by exact_mod_cast short
  rcases Int.lt_or_le 0 exponent with positive | flat
  · -- A multiple of two, although the number is odd.
    obtain ⟨half, rfl⟩ : ∃ half : Nat, exponent = half + 1 := ⟨(exponent - 1).toNat, by omega⟩
    have whole : (2 ^ format.digits + 1 : ℤ) = significand * 2 ^ (half + 1) := by
      have cast : (2 ^ format.digits + 1 : ℚ) = significand * 2 ^ (half + 1) := by
        rw [same]
        norm_cast
      exact_mod_cast cast
    rw [digits, pow_succ, pow_succ, ← mul_assoc] at whole
    omega
  · have small : (2 : ℚ) ^ exponent ≤ 1 := zpow_le_one_of_nonpos₀ one_le_two flat
    have most : (significand : ℚ) * 2 ^ exponent ≤ |(significand : ℚ)| := by
      calc (significand : ℚ) * 2 ^ exponent ≤ |(significand : ℚ)| * 2 ^ exponent :=
            mul_le_mul_of_nonneg_right (le_abs_self _) (zpow_nonneg zero_le_two _)
        _ ≤ |(significand : ℚ)| * 1 := mul_le_mul_of_nonneg_left small (abs_nonneg _)
        _ = |(significand : ℚ)| := mul_one _
    rw [← same] at most
    linarith

/-- A format with no fewer digits and no narrower range has all numbers of another one. -/
theorem Holds.wider {other : BinaryFormat} (holds : format.Holds number)
    (digits : format.digits ≤ other.digits) (lower : other.lowestExponent ≤ format.lowestExponent)
    (upper : format.highestExponent ≤ other.highestExponent) : other.Holds number := by
  obtain ⟨significand, exponent, short, least, most, same⟩ := holds
  refine ⟨significand, exponent, short.trans_le ?_, lower.trans least, most.trans upper, same⟩
  exact pow_le_pow_right₀ one_le_two digits

end BinaryFormat

end ModuleLang.Decimal
