import ModuleLang.Proofs.Decimal.Binary
import ModuleLang.Proofs.Token.Literal
import ModuleLang.Proofs.Typing.Contraction

/-!
What widening keeps. A value that is widened should be a value of the wider type too, with
the same number. So it is wherever the significands of the wider type have room for those of
the other one, and there alone: an integer type with more digits than a floating one has
numbers that this one lacks, but widens to it all the same.
-/

namespace ModuleLang

open ModuleLang.Decimal

/-- The number that a value stands for, unless it is infinite or no number. -/
def Literal.number? : Literal → Option ℚ
  | float bits => (BinaryFormat.single.decode bits.toNat).number?
  | double bits => (BinaryFormat.double.decode bits.toNat).number?
  | value => value.integer?.map fun integer => (integer : ℚ)

namespace Ty

/-- A number is represented in a type by a value of the type that stands for it. -/
def Represents (type : Ty) (number : ℚ) : Prop :=
  ∃ value : Literal, value.type = type ∧ value.number? = some number

/-- The least value of an integer type. -/
def least : Ty → Int
  | int => -2147483648
  | long => -9223372036854775808
  | _ => 0

/-- The format of a floating type. -/
def format? : Ty → Option BinaryFormat
  | float => some .single
  | double => some .double
  | _ => none

/-- How many binary digits the significands of a numeric type have. The least value of a signed
type is a power of two and needs a single one. -/
def digits : Ty → Nat
  | byte => 8
  | int => 31
  | uint => 32
  | long => 63
  | ulong => 64
  | float => BinaryFormat.single.digits
  | double => BinaryFormat.double.digits
  | _ => 0

end Ty

namespace Literal

variable {value : Literal} {type : Ty} {integer : ℤ}

theorem integer_bounds (found : value.integer? = some integer) :
    value.type.isInteger = true ∧ value.type.least ≤ integer ∧ integer ≤ value.type.greatest := by
  cases value with
  | int value | long value =>
      cases found
      have lower := value.le_toInt
      have upper := value.toInt_lt
      refine ⟨rfl, ?_, ?_⟩ <;> simp only [Literal.type, Ty.least, Ty.greatest] <;> omega
  | uint value | ulong value | byte value =>
      cases found
      have upper := value.toNat_lt
      refine ⟨rfl, ?_, ?_⟩ <;> simp only [Literal.type, Ty.least, Ty.greatest] <;> omega
  | _ => cases found

/-- Every integer between the bounds of a type is one of its values. -/
theorem exists_integer (integral : type.isInteger = true) (lower : type.least ≤ integer)
    (upper : integer ≤ type.greatest) :
    ∃ value : Literal, value.type = type ∧ value.integer? = some integer := by
  cases type with
  | int =>
      simp only [Ty.least, Ty.greatest] at lower upper
      exact ⟨.int (.ofInt integer), rfl,
        congrArg some (Int32.toInt_ofInt_of_le (by omega) (by omega))⟩
  | long =>
      simp only [Ty.least, Ty.greatest] at lower upper
      exact ⟨.long (.ofInt integer), rfl,
        congrArg some (Int64.toInt_ofInt_of_le (by omega) (by omega))⟩
  | uint =>
      simp only [Ty.least, Ty.greatest] at lower upper
      have back : (UInt32.ofNat integer.toNat).toNat = integer.toNat :=
        UInt32.toNat_ofNat_of_lt' (by simp only [UInt32.size]; omega)
      refine ⟨.uint (.ofNat integer.toNat), rfl, congrArg some ?_⟩
      rw [back, Int.toNat_of_nonneg lower]
  | ulong =>
      simp only [Ty.least, Ty.greatest] at lower upper
      have back : (UInt64.ofNat integer.toNat).toNat = integer.toNat :=
        UInt64.toNat_ofNat_of_lt' (by simp only [UInt64.size]; omega)
      refine ⟨.ulong (.ofNat integer.toNat), rfl, congrArg some ?_⟩
      rw [back, Int.toNat_of_nonneg lower]
  | byte =>
      simp only [Ty.least, Ty.greatest] at lower upper
      have back : (UInt8.ofNat integer.toNat).toNat = integer.toNat :=
        UInt8.toNat_ofNat_of_lt' (by simp only [UInt8.size]; omega)
      refine ⟨.byte (.ofNat integer.toNat), rfl, congrArg some ?_⟩
      rw [back, Int.toNat_of_nonneg lower]
  | _ => cases integral

theorem number_of_integer (found : value.integer? = some integer) :
    value.number? = some (integer : ℚ) := by
  cases value with
  | int | uint | long | ulong | byte =>
      cases found
      rfl
  | _ => cases found

/-- A value of an integer type stands for an integer. -/
theorem integer_of_number {number : ℚ} (integral : value.type.isInteger = true)
    (stands : value.number? = some number) :
    ∃ integer, value.integer? = some integer ∧ number = integer := by
  cases value with
  | int | uint | long | ulong | byte =>
      cases stands
      exact ⟨_, rfl, rfl⟩
  | _ => cases integral

end Literal

namespace Ty

variable {type source target : Ty} {format : BinaryFormat} {number : ℚ}

/-- An integer type has the integers between its least and its greatest value. -/
theorem represents_integer (integral : type.isInteger = true) :
    type.Represents number ↔
      ∃ integer : ℤ, type.least ≤ integer ∧ integer ≤ type.greatest ∧ number = integer := by
  constructor
  · rintro ⟨value, rfl, stands⟩
    obtain ⟨integer, found, same⟩ := Literal.integer_of_number integral stands
    obtain ⟨-, lower, upper⟩ := Literal.integer_bounds found
    exact ⟨integer, lower, upper, same⟩
  · rintro ⟨integer, lower, upper, rfl⟩
    obtain ⟨value, kind, found⟩ := Literal.exists_integer integral lower upper
    exact ⟨value, kind, Literal.number_of_integer found⟩

/-- A floating type has the numbers of its format. -/
theorem represents_floating (floating : type.format? = some format) :
    type.Represents number ↔ format.Holds number := by
  cases type with
  | float =>
      cases floating
      rw [BinaryFormat.holds_iff (by decide)]
      constructor
      · rintro ⟨value, kind, stands⟩
        cases value with
        | float bits => exact ⟨bits.toNat, bits.toNat_lt, stands⟩
        | _ => cases kind
      · rintro ⟨bits, small, stands⟩
        have back : (UInt32.ofNat bits).toNat = bits := UInt32.toNat_ofNat_of_lt' small
        refine ⟨.float (.ofNat bits), rfl, ?_⟩
        rw [Literal.number?, back]
        exact stands
  | double =>
      cases floating
      rw [BinaryFormat.holds_iff (by decide)]
      constructor
      · rintro ⟨value, kind, stands⟩
        cases value with
        | double bits => exact ⟨bits.toNat, bits.toNat_lt, stands⟩
        | _ => cases kind
      · rintro ⟨bits, small, stands⟩
        have back : (UInt64.ofNat bits).toNat = bits := UInt64.toNat_ofNat_of_lt' small
        refine ⟨.double (.ofNat bits), rfl, ?_⟩
        rw [Literal.number?, back]
        exact stands
  | _ => cases floating

theorem digits_of_integer (integral : type.isInteger = true) :
    (type.greatest : ℤ) = 2 ^ type.digits - 1 ∧ -2 ^ type.digits ≤ type.least := by
  cases type with
  | int | uint | long | ulong | byte => norm_num [greatest, digits, least]
  | _ => cases integral

theorem digits_of_format (floating : type.format? = some format) :
    type.digits = format.digits ∧ format.lowestExponent ≤ 0 ∧ 0 ≤ format.highestExponent := by
  cases type with
  | float | double =>
      cases floating
      refine ⟨rfl, ?_, ?_⟩ <;> decide +kernel
  | _ => cases floating

/-- An integer type widens to integer types with a wider range and to the floating types, and
the narrower floating type to the other one. -/
theorem widens_cases (widens : source.widensTo target = true) :
    (source.isInteger = true ∧ target.isInteger = true ∧ source.digits ≤ target.digits ∧
      target.least ≤ source.least ∧ (source.greatest : ℤ) ≤ target.greatest) ∨
    (source.isInteger = true ∧ source.digits ≠ target.digits ∧
      ∃ format, target.format? = some format) ∨
    (source = float ∧ target = double) := by
  rw [widensTo, List.contains_iff_mem] at widens
  cases source with
  | byte | int | uint | long | ulong =>
      simp only [wider, List.mem_cons, List.not_mem_nil, or_false] at widens
      rcases widens with rfl | rfl | rfl | rfl | rfl | rfl <;>
        first
        | exact .inl ⟨rfl, rfl, by decide, by decide, by decide⟩
        | exact .inr (.inl ⟨rfl, by decide, _, rfl⟩)
  | float => exact .inr (.inr ⟨rfl, List.mem_singleton.mp widens⟩)
  | _ => cases widens

/-- Where the significands of the wider type have room, widening keeps every number. -/
theorem represents_of_widens (widens : source.widensTo target = true)
    (room : source.digits ≤ target.digits) (represented : source.Represents number) :
    target.Represents number := by
  obtain ⟨integral, also, -, lower, upper⟩ | ⟨integral, differ, format, floating⟩ |
    ⟨rfl, rfl⟩ := widens_cases widens
  · obtain ⟨integer, least, greatest, same⟩ := (represents_integer integral).mp represented
    exact (represents_integer also).mpr
      ⟨integer, lower.trans least, greatest.trans upper, same⟩
  · obtain ⟨integer, least, greatest, rfl⟩ := (represents_integer integral).mp represented
    obtain ⟨most, fewest⟩ := digits_of_integer integral
    obtain ⟨digits, lower, upper⟩ := digits_of_format floating
    rw [represents_floating floating]
    refine BinaryFormat.holds_integer ?_ lower upper
    have further : (2 : ℤ) ^ source.digits < 2 ^ format.digits :=
      pow_lt_pow_right₀ one_lt_two (digits ▸ Nat.lt_of_le_of_ne room differ)
    rw [abs_lt]
    omega
  · rw [represents_floating rfl] at represented ⊢
    exact represented.wider (by decide) (by decide +kernel) (by decide +kernel)

/-- Where it has not, the first integer with more digits is lost. -/
theorem successor_lost (integral : source.isInteger = true)
    (floating : target.format? = some format) (short : target.digits < source.digits) :
    source.Represents (2 ^ target.digits + 1) ∧ ¬ target.Represents (2 ^ target.digits + 1) := by
  obtain ⟨digits, -, -⟩ := digits_of_format floating
  constructor
  · obtain ⟨most, -⟩ := digits_of_integer integral
    have least : source.least ≤ 0 := by
      cases source with
      | int | uint | long | ulong | byte => decide
      | _ => cases integral
    have double : (2 : ℤ) ^ (target.digits + 1) ≤ 2 ^ source.digits :=
      pow_le_pow_right₀ one_le_two short
    have positive : (2 : ℤ) ^ 1 ≤ 2 ^ target.digits :=
      pow_le_pow_right₀ one_le_two (digits ▸ Nat.succ_pos _)
    rw [pow_succ] at double
    refine (represents_integer integral).mpr ⟨2 ^ target.digits + 1, by omega, by omega, ?_⟩
    push_cast
    rfl
  · rw [represents_floating floating, digits]
    exact BinaryFormat.not_holds_successor

/-- Widening keeps the numbers of a type if and only if the other type has room for their
digits. -/
theorem widening_keeps_iff (widens : source.widensTo target = true) :
    (∀ number, source.Represents number → target.Represents number) ↔
      source.digits ≤ target.digits := by
  constructor
  · intro keeps
    by_contra short
    obtain ⟨-, -, room, -⟩ | ⟨integral, -, format, floating⟩ | ⟨rfl, rfl⟩ := widens_cases widens
    · exact short room
    · obtain ⟨represented, lost⟩ := successor_lost integral floating (Nat.lt_of_not_le short)
      exact lost (keeps _ represented)
    · exact short (by decide)
  · intro room number represented
    exact represents_of_widens widens room represented

example : [byte, int, uint, long, ulong, float].flatMap (fun source =>
    (source.wider.filter fun target => target.digits < source.digits).map (Prod.mk source)) =
      [(int, float), (uint, float), (long, float), (long, double), (ulong, float),
        (ulong, double)] := by
  decide +kernel

end Ty

namespace ParsedModule

/-- A variable that an integer does not fit, but widens to. -/
def lossyText : String := "module m; fn f() \x7b float x := 16777217; \x7d"

/-- What inference reports of a parsed module and makes of its tree. -/
def inferred? (parsed : ParsedModule) : Option (List Diagnostic × SourceTree) :=
  match (SourceTree.inferTypes parsed.fileName .empty parsed.root).run parsed.tree with
  | .ok found tree => some (found, tree)
  | .error .. => none

end ParsedModule

end ModuleLang
