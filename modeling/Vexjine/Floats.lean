import Mathlib.Tactic
import Mathlib.Data.Int.Log

/-!
# Binary floating point over the rationals

Values are rational numbers and a format is the number of its significant bits; the
exponents are not bounded. An operation is the exact one, rounded to the nearest value
of the format, and from the middle to the even one. Conversions to integers drop the
fraction. Rounding is monotone, symmetric and idempotent; a value of a format takes in
exactly the errors up to half the distance to its neighbour, in the middle if its
significand is even.
-/

namespace Vexjine.Floats

def nearestEven (value : ℚ) : ℤ :=
  if 2 * Int.fract value < 1 ∨ 2 * Int.fract value = 1 ∧ ⌊value⌋ % 2 = 0 then ⌊value⌋ else ⌊value⌋ + 1

/-- What the last of the significant bits of the value counts. -/
def unit (precision : ℕ) (value : ℚ) : ℚ := 2 ^ (Int.log 2 |value| + 1 - precision)

def rounded (precision : ℕ) (value : ℚ) : ℚ := nearestEven (value / unit precision value) * unit precision value

/-- A `float`. -/
def toFloat (value : ℚ) : ℚ := rounded 24 value

/-- A `double`. -/
def toDouble (value : ℚ) : ℚ := rounded 53 value

/-- The integer part, towards zero. -/
def truncated (value : ℚ) : ℤ := value.num.tdiv value.den

/-- Values out of range become the least number. -/
def toLongLong (value : ℚ) : Int64 :=
  if -2 ^ 63 ≤ truncated value ∧ truncated value < 2 ^ 63 then Int64.ofInt (truncated value) else Int64.minValue

/-- The distance from a value of the format to the next one in the direction of the error; below a power of
    two the values are twice as dense. -/
def gap (precision : ℕ) (value error : ℚ) : ℚ :=
  if |value + error| < |value| ∧ |value| = 2 ^ Int.log 2 |value| then unit precision value / 2 else unit precision value

def Representable (precision : ℕ) (value : ℚ) : Prop := rounded precision value = value

/-- The error does not carry a value of the format away from it. -/
def TakesIn (precision : ℕ) (value error : ℚ) : Prop :=
  2 * |error| < gap precision value error ∨
    2 * |error| = gap precision value error ∧ ∃ half : ℤ, value = 2 * half * gap precision value error

variable {precision : ℕ} {value other error : ℚ}

/-! ## Rounding -/

@[simp] theorem nearestEven_intCast (value : ℤ) : nearestEven value = value := by simp [nearestEven]

theorem unit_pos (precision : ℕ) (value : ℚ) : 0 < unit precision value := by
  rw [unit]
  positivity

@[simp] theorem rounded_zero (precision : ℕ) : rounded precision 0 = 0 := by
  rw [rounded,zero_div]
  simp [nearestEven]

/-- Multiples of the last bit are values of the format. -/
theorem rounded_of_multiple {precision : ℕ} {value : ℚ} (multiple : ℤ)
    (is : value = multiple * unit precision value) : rounded precision value = value := by
  have quotient : value / unit precision value = multiple := by
    rw [div_eq_iff (unit_pos precision value).ne']
    exact is
  rw [rounded,quotient,nearestEven_intCast]
  exact is.symm

/-- Integers that have no more bits than the format are exact. -/
theorem rounded_intCast {precision : ℕ} {value : ℤ} (small : value.natAbs < 2 ^ precision) :
    rounded precision value = value := by
  rcases eq_or_ne value 0 with rfl | nonzero
  · simp
  have magnitude : |(value : ℚ)| = (value.natAbs : ℚ) := by rw [Nat.cast_natAbs,Int.cast_abs]
  have positive : (0 : ℚ) < |(value : ℚ)| := abs_pos.mpr (Int.cast_ne_zero.mpr nonzero)
  have bits : Int.log 2 |(value : ℚ)| < precision := by
    rw [← Int.lt_zpow_iff_log_lt one_lt_two positive,magnitude,zpow_natCast]
    exact_mod_cast small
  obtain ⟨spare,enough⟩ := Int.eq_ofNat_of_zero_le (show 0 ≤ (precision : ℤ) - (Int.log 2 |(value : ℚ)| + 1) by omega)
  refine rounded_of_multiple (value * 2 ^ spare) ?_
  have exponent : Int.log 2 |(value : ℚ)| + 1 - precision = -(spare : ℤ) := by omega
  rw [unit,exponent,zpow_neg,zpow_natCast]
  push_cast
  rw [mul_assoc,mul_inv_cancel₀ (by positivity),mul_one]

private theorem nearestEven_spec (value : ℚ) :
    2 * |value - nearestEven value| < 1 ∨ 2 * |value - nearestEven value| = 1 ∧ nearestEven value % 2 = 0 := by
  have fraction : value = ⌊value⌋ + Int.fract value := (Int.floor_add_fract value).symm
  have nonneg := Int.fract_nonneg value
  have below := Int.fract_lt_one value
  unfold nearestEven
  split
  · rename_i down
    have error : |value - (⌊value⌋ : ℤ)| = Int.fract value := by
      rw [abs_of_nonneg (by linarith)]
      linarith
    rwa [error]
  · rename_i up
    rw [not_or,not_and] at up
    have error : |value - ((⌊value⌋ + 1 : ℤ) : ℚ)| = 1 - Int.fract value := by
      push_cast
      rw [abs_of_nonpos (by linarith)]
      linarith
    rw [error]
    rcases lt_or_eq_of_le (not_lt.mp up.1) with far | middle
    · exact .inl (by linarith)
    · have odd := up.2 middle.symm
      exact .inr ⟨by linarith,by omega⟩

theorem nearestEven_eq_iff (value : ℚ) (nearest : ℤ) :
    nearestEven value = nearest ↔ 2 * |value - nearest| < 1 ∨ 2 * |value - nearest| = 1 ∧ nearest % 2 = 0 := by
  constructor
  · rintro rfl
    exact nearestEven_spec value
  · intro close
    have spec := nearestEven_spec value
    have apart : |(nearestEven value : ℚ) - nearest| ≤ |value - nearestEven value| + |value - nearest| := by
      rw [abs_sub_comm value]
      exact abs_sub_le _ _ _
    by_contra different
    have distance : (1 : ℚ) ≤ |(nearestEven value : ℚ) - nearest| := by
      have := Int.one_le_abs (sub_ne_zero.mpr different)
      exact_mod_cast this
    -- Both are in the middle, so both are even and one apart.
    rcases spec with near | ⟨middle,even⟩
    · rcases close with close | close <;> linarith [close]
    · rcases close with close | ⟨close,alsoEven⟩
      · linarith
      · have one : |nearestEven value - nearest| ≤ 1 := by
          have : |(nearestEven value : ℚ) - nearest| ≤ 1 := by linarith
          exact_mod_cast this
        have bounds := abs_le.mp one
        omega

theorem nearestEven_mono (le : value ≤ other) : nearestEven value ≤ nearestEven other := by
  have first := nearestEven_spec value
  have second := nearestEven_spec other
  by_contra crossed
  have above : (nearestEven other : ℚ) + 1 ≤ nearestEven value := by exact_mod_cast not_le.mp crossed
  have low : -|value - nearestEven value| ≤ value - nearestEven value := neg_abs_le _
  have high : other - nearestEven other ≤ |other - nearestEven other| := le_abs_self _
  -- The two roundings meet in the middle, where both are the same number.
  have same : value = other := by
    apply le_antisymm le
    rcases first with near | ⟨middle,-⟩ <;> rcases second with close | ⟨between,-⟩ <;> linarith
  exact crossed (same ▸ le_rfl)

theorem nearestEven_neg (value : ℚ) : nearestEven (-value) = -nearestEven value := by
  rw [nearestEven_eq_iff]
  have distance : |-value - ((-nearestEven value : ℤ) : ℚ)| = |value - nearestEven value| := by
    rw [Int.cast_neg,← abs_neg]
    congr 1
    ring
  rw [distance]
  rcases nearestEven_spec value with near | ⟨middle,even⟩
  · exact .inl near
  · exact .inr ⟨middle,by omega⟩

/-! ## To a format -/

theorem unit_neg (precision : ℕ) (value : ℚ) : unit precision (-value) = unit precision value := by
  rw [unit,unit,abs_neg]

theorem rounded_neg (precision : ℕ) (value : ℚ) : rounded precision (-value) = -rounded precision value := by
  rw [rounded,rounded,unit_neg,neg_div,nearestEven_neg,Int.cast_neg,neg_mul]

theorem unit_eq (positive : 0 < value) : unit precision value = 2 ^ (Int.log 2 value + 1 - precision) := by
  rw [unit,abs_of_pos positive]

theorem unit_congr (positive : 0 < value) (alsoPositive : 0 < other) (same : Int.log 2 value = Int.log 2 other) :
    unit precision value = unit precision other := by
  rw [unit_eq positive,unit_eq alsoPositive,same]

/-- The powers of two around a positive value, in units of its last place. -/
private theorem powers_eq (positive : 0 < value) (bits : 0 < precision) :
    (2 : ℚ) ^ Int.log 2 value = (2 ^ (precision - 1) : ℤ) * unit precision value ∧
      (2 : ℚ) ^ (Int.log 2 value + 1) = (2 ^ precision : ℤ) * unit precision value := by
  have exponent : ((precision - 1 : ℕ) : ℤ) = precision - 1 := by omega
  rw [unit_eq positive]
  push_cast
  rw [← zpow_natCast,← zpow_natCast,exponent,← zpow_add₀ two_ne_zero,← zpow_add₀ two_ne_zero]
  constructor <;> congr 1 <;> ring

private theorem between_powers (positive : 0 < value) :
    (2 : ℚ) ^ Int.log 2 value ≤ value ∧ value < 2 ^ (Int.log 2 value + 1) :=
  ⟨by exact_mod_cast Int.zpow_log_le_self one_lt_two positive,by exact_mod_cast Int.lt_zpow_succ_log_self one_lt_two value⟩

/-- Rounding does not pass the powers of two around a positive value. -/
theorem rounded_bounds (positive : 0 < value) (bits : 0 < precision) :
    (2 : ℚ) ^ Int.log 2 value ≤ rounded precision value ∧ rounded precision value ≤ 2 ^ (Int.log 2 value + 1) := by
  have unitPos := unit_pos precision value
  obtain ⟨least,most⟩ := @powers_eq precision value positive bits
  obtain ⟨low,high⟩ := between_powers positive
  have below : (2 ^ (precision - 1) : ℤ) ≤ nearestEven (value / unit precision value) := by
    rw [← nearestEven_intCast (2 ^ (precision - 1))]
    apply nearestEven_mono
    rwa [le_div_iff₀ unitPos,← least]
  have above : nearestEven (value / unit precision value) ≤ (2 ^ precision : ℤ) := by
    rw [← nearestEven_intCast (2 ^ precision)]
    apply nearestEven_mono
    rw [div_le_iff₀ unitPos,← most]
    exact high.le
  rw [least,most,rounded]
  exact ⟨mul_le_mul_of_nonneg_right (by exact_mod_cast below) unitPos.le,
    mul_le_mul_of_nonneg_right (by exact_mod_cast above) unitPos.le⟩

private theorem rounded_pos (positive : 0 < value) (bits : 0 < precision) : 0 < rounded precision value :=
  lt_of_lt_of_le (zpow_pos two_pos _) (rounded_bounds positive bits).1

private theorem rounded_mono_of_pos (bits : 0 < precision) (positive : 0 < value) (le : value ≤ other) :
    rounded precision value ≤ rounded precision other := by
  have alsoPositive := positive.trans_le le
  rcases (Int.log_mono_right positive le : Int.log 2 value ≤ Int.log 2 other).lt_or_eq with fewer | same
  · have high := (@rounded_bounds precision value positive bits).2
    have low := (@rounded_bounds precision other alsoPositive bits).1
    have powers : (2 : ℚ) ^ (Int.log 2 value + 1) ≤ 2 ^ Int.log 2 other := zpow_le_zpow_right₀ one_le_two (by omega)
    exact high.trans (powers.trans low)
  · have units := @unit_congr precision value other positive alsoPositive same
    have unitPos := unit_pos precision other
    rw [rounded,rounded,units]
    refine mul_le_mul_of_nonneg_right ?_ unitPos.le
    exact_mod_cast nearestEven_mono (div_le_div_of_nonneg_right le unitPos.le)

theorem rounded_mono (bits : 0 < precision) (le : value ≤ other) : rounded precision value ≤ rounded precision other := by
  rcases lt_trichotomy 0 value with positive | rfl | negative
  · exact rounded_mono_of_pos bits positive le
  · rw [rounded_zero]
    rcases le.lt_or_eq with positive | rfl
    · exact (rounded_pos positive bits).le
    · rw [rounded_zero]
  · have mirrored : rounded precision value = -rounded precision (-value) := by rw [rounded_neg,neg_neg]
    have belowZero := rounded_pos (neg_pos.mpr negative) bits
    rcases lt_trichotomy 0 other with positive | rfl | alsoNegative
    · have aboveZero := rounded_pos positive bits
      linarith
    · rw [rounded_zero]
      linarith
    · have reflected : rounded precision other = -rounded precision (-other) := by rw [rounded_neg,neg_neg]
      have mono := rounded_mono_of_pos bits (neg_pos.mpr alsoNegative) (neg_le_neg le)
      linarith

theorem log_eq_of_between {exponent : ℤ} (low : (2 : ℚ) ^ exponent ≤ value) (high : value < 2 ^ (exponent + 1)) :
    Int.log 2 value = exponent := by
  have positive : 0 < value := lt_of_lt_of_le (zpow_pos two_pos _) low
  have most := (Int.lt_zpow_iff_log_lt (R := ℚ) one_lt_two positive).mp (by exact_mod_cast high)
  have least := (Int.zpow_le_iff_le_log (R := ℚ) one_lt_two positive).mp (by exact_mod_cast low)
  omega

private theorem log_two_zpow (exponent : ℤ) : Int.log 2 ((2 : ℚ) ^ exponent) = exponent := by
  exact_mod_cast Int.log_zpow (R := ℚ) one_lt_two exponent

/-- The values of a format are the multiples of their last places. -/
theorem representable_iff : Representable precision value ↔ ∃ significand : ℤ, value = significand * unit precision value := by
  constructor
  · intro exactly
    exact ⟨_,exactly.symm⟩
  · rintro ⟨significand,is⟩
    exact rounded_of_multiple significand is

theorem representable_neg : Representable precision (-value) ↔ Representable precision value := by
  rw [Representable,rounded_neg,neg_inj,Representable]

theorem representable_zpow (bits : 0 < precision) (exponent : ℤ) : Representable precision (2 ^ exponent) := by
  have power := (@powers_eq precision ((2 : ℚ) ^ exponent) (zpow_pos two_pos _) bits).1
  rw [log_two_zpow] at power
  exact representable_iff.mpr ⟨_,power⟩

private theorem representable_rounded_of_pos (bits : 0 < precision) (positive : 0 < value) :
    Representable precision (rounded precision value) := by
  obtain ⟨low,high⟩ := @rounded_bounds precision value positive bits
  rcases high.lt_or_eq with within | power
  · have same := log_eq_of_between low within
    have units := @unit_congr precision _ _ (rounded_pos positive bits) positive same
    exact representable_iff.mpr ⟨nearestEven (value / unit precision value),by rw [units,rounded]⟩
  · rw [power]
    exact representable_zpow bits _

theorem representable_rounded (bits : 0 < precision) (value : ℚ) : Representable precision (rounded precision value) := by
  rcases lt_trichotomy 0 value with positive | rfl | negative
  · exact representable_rounded_of_pos bits positive
  · rw [Representable,rounded_zero,rounded_zero]
  · have mirrored := representable_rounded_of_pos bits (neg_pos.mpr negative)
    rwa [rounded_neg,representable_neg] at mirrored

/-- Integers are rounded to integers. -/
theorem exists_rounded_intCast (precision : ℕ) (number : ℤ) : ∃ nearest : ℤ, rounded precision number = nearest := by
  rcases lt_or_ge number.natAbs (2 ^ precision) with small | large
  · exact ⟨number,rounded_intCast small⟩
  · have magnitude : (2 : ℚ) ^ (precision : ℤ) ≤ |(number : ℚ)| := by
      rw [← Int.cast_abs,← Int.natCast_natAbs,zpow_natCast]
      exact_mod_cast large
    have places := Int.log_mono_right (b := 2) (zpow_pos two_pos _) magnitude
    rw [log_two_zpow] at places
    obtain ⟨spare,exponent⟩ := Int.eq_ofNat_of_zero_le (show 0 ≤ Int.log 2 |(number : ℚ)| + 1 - precision by omega)
    refine ⟨nearestEven (number / unit precision number) * 2 ^ spare,?_⟩
    rw [rounded]
    push_cast
    congr 1
    rw [unit,exponent,zpow_natCast]

/-! ## What a value takes in -/

private theorem nearestEven_quotient_iff {place : ℚ} (positive : 0 < place) (significand : ℤ) :
    nearestEven (value / place) = significand ↔
      2 * |value - significand * place| < place ∨ 2 * |value - significand * place| = place ∧ significand % 2 = 0 := by
  have distance : |value / place - significand| = |value - significand * place| / place := by
    rw [← abs_of_pos positive,← abs_div,abs_of_pos positive]
    congr 1
    field_simp
  rw [nearestEven_eq_iff,distance,← mul_div_assoc,div_lt_one positive,div_eq_one_iff_eq positive.ne']

private theorem even_iff {place : ℚ} (positive : 0 < place) {significand : ℤ} (is : value = significand * place) :
    significand % 2 = 0 ↔ ∃ half : ℤ, value = 2 * half * place := by
  constructor
  · intro even
    refine ⟨significand / 2,?_⟩
    have double : significand = 2 * (significand / 2) := by omega
    rw [is]
    congr 1
    exact_mod_cast double
  · rintro ⟨half,double⟩
    have same : (significand : ℚ) = 2 * half := mul_right_cancel₀ positive.ne' (is.symm.trans double)
    have : significand = 2 * half := by exact_mod_cast same
    omega

/-- A sum with the same place as the value is rounded to it as an integer number of places is. -/
private theorem rounded_add_iff_of_unit {place : ℚ} {significand : ℤ} (same : unit precision (value + error) = place)
    (is : value = significand * place) :
    rounded precision (value + error) = value ↔
      2 * |error| < place ∨ 2 * |error| = place ∧ ∃ half : ℤ, value = 2 * half * place := by
  have positive : 0 < place := same ▸ unit_pos precision (value + error)
  have distance : value + error - significand * place = error := by rw [← is]; ring
  rw [← even_iff positive is,← distance,← nearestEven_quotient_iff positive,distance,rounded,same]
  constructor
  · intro sum
    have cancelled := mul_right_cancel₀ positive.ne' (sum.trans is)
    exact_mod_cast cancelled
  · intro sum
    rw [sum,← is]

private theorem gap_of_below (positive : 0 < value) (power : value = 2 ^ Int.log 2 value)
    (below : |value + error| < value) : gap precision value error = unit precision value / 2 := by
  rw [gap,abs_of_pos positive,if_pos ⟨below,power⟩]

private theorem gap_of_not_below (positive : 0 < value) (inside : ¬ (|value + error| < value ∧ value = 2 ^ Int.log 2 value)) :
    gap precision value error = unit precision value := by
  rw [gap,abs_of_pos positive,if_neg inside]

private theorem unit_half (positive : 0 < value) (alsoPositive : 0 < other) (fewer : Int.log 2 other + 1 = Int.log 2 value) :
    unit precision other = unit precision value / 2 := by
  have exponent : Int.log 2 value + 1 - precision = Int.log 2 other + 1 - precision + 1 := by omega
  rw [unit_eq positive,unit_eq alsoPositive,exponent,zpow_add_one₀ two_ne_zero,mul_div_cancel_right₀ _ two_ne_zero]

private theorem double_place {place : ℚ} {significand : ℤ} (is : value = significand * place) :
    value = (2 * significand : ℤ) * (place / 2) := by
  rw [is]
  push_cast
  ring

/-- The sum is within the powers of two around the value, or just below the lower one. -/
private theorem log_of_rounded (bits : 0 < precision) (positive : 0 < value)
    (sum : rounded precision (value + error) = value) :
    0 < value + error ∧ (Int.log 2 (value + error) = Int.log 2 value ∨
      value = 2 ^ Int.log 2 value ∧ Int.log 2 (value + error) + 1 = Int.log 2 value) := by
  have sumPos : 0 < value + error := by
    by_contra nonpos
    have mono := @rounded_mono precision (value + error) 0 bits (not_lt.mp nonpos)
    rw [rounded_zero,sum] at mono
    linarith
  refine ⟨sumPos,?_⟩
  obtain ⟨low,high⟩ := @rounded_bounds precision _ sumPos bits
  rw [sum] at low high
  rcases high.lt_or_eq with within | power
  · exact .inl (log_eq_of_between low within).symm
  · right
    have exponent : Int.log 2 value = Int.log 2 (value + error) + 1 :=
      (congrArg (Int.log 2) power).trans (log_two_zpow _)
    exact ⟨by rw [exponent]; exact power,exponent.symm⟩

private theorem takesIn_of_rounded (bits : 0 < precision) (positive : 0 < value)
    (sum : rounded precision (value + error) = value) : Representable precision value ∧ TakesIn precision value error := by
  have exactly : Representable precision value := sum ▸ representable_rounded bits (value + error)
  refine ⟨exactly,?_⟩
  obtain ⟨significand,is⟩ := representable_iff.mp exactly
  obtain ⟨sumPos,same | ⟨power,half⟩⟩ := log_of_rounded bits positive sum
  · have units := @unit_congr precision _ _ sumPos positive same
    have inside : ¬ (|value + error| < value ∧ value = 2 ^ Int.log 2 value) := by
      rintro ⟨below,isPower⟩
      have low := (between_powers sumPos).1
      rw [abs_of_pos sumPos] at below
      rw [same,← isPower] at low
      linarith
    rw [TakesIn,gap_of_not_below positive inside]
    exact (rounded_add_iff_of_unit units is).mp sum
  · have units := @unit_half precision value _ positive sumPos half
    have below : |value + error| < value := by
      have high := (between_powers sumPos).2
      rw [half,← power] at high
      rwa [abs_of_pos sumPos]
    rw [TakesIn,gap_of_below positive power below]
    exact (rounded_add_iff_of_unit units (double_place is)).mp sum

/-- The last place of a value of the format is not above it. -/
private theorem unit_le (bits : 0 < precision) (positive : 0 < value) : unit precision value ≤ value := by
  have low := (between_powers positive).1
  have power := (@powers_eq precision value positive bits).1
  have one : (1 : ℚ) ≤ (2 ^ (precision - 1) : ℤ) := by
    push_cast
    exact one_le_pow₀ one_le_two
  have unitPos := unit_pos precision value
  nlinarith

private theorem next_place {place first second : ℚ} {low high : ℤ} (positive : 0 < place) (isLow : first = low * place)
    (isHigh : second = high * place) (less : first < second) : first + place ≤ second := by
  rw [isLow,isHigh] at less
  have significands : low + 1 ≤ high := by exact_mod_cast lt_of_mul_lt_mul_right less positive.le
  have places : ((low : ℚ) + 1) * place ≤ high * place := by
    apply mul_le_mul_of_nonneg_right _ positive.le
    exact_mod_cast significands
  rw [isLow,isHigh]
  linarith

private theorem rounded_of_takesIn (bits : 0 < precision) (positive : 0 < value) (exactly : Representable precision value)
    (takesIn : TakesIn precision value error) : rounded precision (value + error) = value := by
  obtain ⟨significand,is⟩ := representable_iff.mp exactly
  obtain ⟨least,most⟩ := @powers_eq precision value positive bits
  obtain ⟨low,high⟩ := between_powers positive
  have unitPos := unit_pos precision value
  have small := @unit_le precision value bits positive
  have errorLow := neg_abs_le error
  have errorHigh := le_abs_self error
  by_cases below : |value + error| < value ∧ value = 2 ^ Int.log 2 value
  · obtain ⟨isBelow,power⟩ := below
    rw [TakesIn,gap_of_below positive power isBelow] at takesIn
    have near : 2 * |error| ≤ unit precision value / 2 := by
      rcases takesIn with near | ⟨middle,-⟩ <;> linarith
    have sumPos : 0 < value + error := by linarith
    have fewer : Int.log 2 (value + error) = Int.log 2 value - 1 := by
      apply log_eq_of_between
      · rw [zpow_sub_one₀ two_ne_zero,← power]
        linarith
      · rw [sub_add_cancel,← power]
        rwa [abs_of_pos sumPos] at isBelow
    have units := @unit_half precision value _ positive sumPos (by omega)
    exact (rounded_add_iff_of_unit units (double_place is)).mpr takesIn
  · rw [TakesIn,gap_of_not_below positive below] at takesIn
    have near : 2 * |error| ≤ unit precision value := by
      rcases takesIn with near | ⟨middle,-⟩ <;> linarith
    have sumPos : 0 < value + error := by linarith
    have same : Int.log 2 (value + error) = Int.log 2 value := by
      apply log_eq_of_between
      · by_contra under
        rw [not_le] at under
        have isBelow : |value + error| < value := by
          rw [abs_of_pos sumPos]
          linarith
        have above := lt_of_le_of_ne low fun power => below ⟨isBelow,power.symm⟩
        have gained := next_place unitPos least is above
        linarith
      · have room := next_place unitPos is most high
        linarith
    have units := @unit_congr precision _ _ sumPos positive same
    exact (rounded_add_iff_of_unit units is).mpr takesIn

private theorem gap_neg (precision : ℕ) (value error : ℚ) : gap precision (-value) (-error) = gap precision value error := by
  rw [gap,gap,← neg_add,abs_neg,abs_neg,unit_neg]

private theorem takesIn_neg : TakesIn precision (-value) (-error) ↔ TakesIn precision value error := by
  rw [TakesIn,TakesIn,gap_neg,abs_neg]
  refine or_congr_right (and_congr_right fun _ => ?_)
  constructor
  · rintro ⟨half,is⟩
    refine ⟨-half,?_⟩
    push_cast
    linarith
  · rintro ⟨half,is⟩
    refine ⟨-half,?_⟩
    push_cast
    linarith

/-- A sum is rounded to one of its summands if and only if that is a value of the format and takes in the other. -/
theorem rounded_add_eq_iff (bits : 0 < precision) (nonzero : value ≠ 0) :
    rounded precision (value + error) = value ↔ Representable precision value ∧ TakesIn precision value error := by
  rcases lt_or_gt_of_ne nonzero with negative | positive
  · have mirrored : rounded precision (value + error) = -rounded precision (-value + -error) := by
      rw [← rounded_neg]
      congr 1
      ring
    rw [mirrored,neg_eq_iff_eq_neg,← representable_neg,← takesIn_neg]
    have belowZero := neg_pos.mpr negative
    constructor
    · intro sum
      exact takesIn_of_rounded bits belowZero sum
    · rintro ⟨exactly,takesIn⟩
      exact rounded_of_takesIn bits belowZero exactly takesIn
  · constructor
    · intro sum
      exact takesIn_of_rounded bits positive sum
    · rintro ⟨exactly,takesIn⟩
      exact rounded_of_takesIn bits positive exactly takesIn

/-- A rounded sum is not before the value that was rounded to its first summand. -/
theorem le_rounded_add_iff (bits : 0 < precision) (positive : 0 < value) :
    value ≤ rounded precision (rounded precision value + error) ↔
      if value ≤ rounded precision value then 0 ≤ error ∨ TakesIn precision (rounded precision value) error
      else 0 < error ∧ ¬ TakesIn precision (rounded precision value) error := by
  have exactly := @representable_rounded precision bits value
  have nonzero : rounded precision value ≠ 0 := (rounded_pos positive bits).ne'
  have kept := @rounded_add_eq_iff precision (rounded precision value) error bits nonzero
  rw [and_iff_right exactly] at kept
  have idem : rounded precision (rounded precision (rounded precision value + error)) =
      rounded precision (rounded precision value + error) := representable_rounded bits _
  have up : 0 ≤ error → rounded precision value ≤ rounded precision (rounded precision value + error) := by
    intro nonneg
    have mono := @rounded_mono precision (rounded precision value) (rounded precision value + error) bits (by linarith)
    rwa [exactly] at mono
  have down : error ≤ 0 → rounded precision (rounded precision value + error) ≤ rounded precision value := by
    intro nonpos
    have mono := @rounded_mono precision (rounded precision value + error) (rounded precision value) bits (by linarith)
    rwa [exactly] at mono
  split
  · rename_i above
    rw [← kept]
    constructor
    · intro reaches
      by_cases nonneg : 0 ≤ error
      · exact .inl nonneg
      · have mono := @rounded_mono precision value (rounded precision (rounded precision value + error)) bits reaches
        rw [idem] at mono
        exact .inr (le_antisymm (down (not_le.mp nonneg).le) mono)
    · rintro (nonneg | same)
      · exact above.trans (up nonneg)
      · rwa [same]
  · rename_i below
    rw [not_le] at below
    rw [← kept]
    constructor
    · intro reaches
      refine ⟨?_,fun same => not_lt.mpr (same ▸ reaches) below⟩
      by_contra nonpos
      have falls := down (not_lt.mp nonpos)
      linarith
    · rintro ⟨gains,changed⟩
      by_contra short
      have mono := @rounded_mono precision (rounded precision (rounded precision value + error)) value bits (not_le.mp short).le
      rw [idem] at mono
      exact changed (le_antisymm mono (up gains.le))

/-! ## `float` values -/

theorem toFloat_idem (value : ℚ) : toFloat (toFloat value) = toFloat value := representable_rounded (by decide) value

/-- The middle below 2 ^ 63 is rounded up, and nothing less is. -/
theorem toFloat_lt_iff (value : ℚ) : toFloat value < 2 ^ 63 ↔ value < 2 ^ 63 - 2 ^ 38 := by
  have log : Int.log 2 (2 ^ 63 : ℚ) = 63 := by exact_mod_cast Int.log_zpow (R := ℚ) (b := 2) one_lt_two 63
  have place : unit 24 (2 ^ 63) = 2 ^ 40 := by
    rw [unit_eq (by positivity),log]
    norm_num
  have below : ∀ error : ℚ, -2 ^ 63 < error → error < 0 → gap 24 (2 ^ 63) error = 2 ^ 39 := by
    intro error least negative
    have nearer : |2 ^ 63 + error| < |(2 ^ 63 : ℚ)| := by
      rw [abs_of_pos (by linarith),abs_of_pos (by positivity)]
      linarith
    rw [gap,if_pos ⟨nearer,by rw [abs_of_pos (by positivity),log]; norm_num⟩,place]
    norm_num
  have up : toFloat (2 ^ 63 + -2 ^ 38) = 2 ^ 63 := by
    refine (rounded_add_eq_iff (by decide) (by positivity)).mpr ⟨?_,.inr ?_⟩
    · exact rounded_of_multiple (2 ^ 23) (by rw [place]; norm_num)
    · rw [below _ (by norm_num) (by norm_num)]
      exact ⟨by norm_num,2 ^ 23,by norm_num⟩
  constructor
  · intro less
    by_contra middle
    have mono := @rounded_mono 24 (2 ^ 63 + -2 ^ 38) value (by decide) (by linarith)
    rw [toFloat] at less up
    linarith
  · intro less
    by_contra atLeast
    rw [toFloat] at up atLeast
    have mono := @rounded_mono 24 value (2 ^ 63 + -2 ^ 38) (by decide) (by linarith)
    have positive : 0 < value := by
      by_contra nonpos
      have zero := @rounded_mono 24 value 0 (by decide) (not_lt.mp nonpos)
      rw [rounded_zero] at zero
      linarith
    have sum : rounded 24 (2 ^ 63 + (value - 2 ^ 63)) = 2 ^ 63 := by
      rw [add_sub_cancel]
      linarith
    have takesIn := ((rounded_add_eq_iff (by decide) (by positivity)).mp sum).2
    have far : 2 ^ 38 < |value - 2 ^ 63| := by
      rw [abs_of_neg (by linarith)]
      linarith
    rw [TakesIn,below _ (by linarith) (by linarith)] at takesIn
    rcases takesIn with near | ⟨middle,-⟩ <;> linarith

theorem neg_le_toFloat {value : ℚ} (low : -2 ^ 63 ≤ value) : -2 ^ 63 ≤ toFloat value := by
  have power : Representable 24 (2 ^ 63) := by exact_mod_cast @representable_zpow 24 (by decide) 63
  have exactly : rounded 24 (-2 ^ 63) = -2 ^ 63 := representable_neg.mpr power
  have mono := @rounded_mono 24 (-2 ^ 63) value (by decide) low
  rwa [exactly] at mono

/-! ## Truncation -/

@[simp] theorem truncated_intCast (value : ℤ) : truncated value = value := by simp [truncated]

@[simp] theorem toLongLong_zero : toLongLong 0 = 0 := by
  have zero : truncated 0 = 0 := truncated_intCast 0
  rw [toLongLong,zero]
  rfl

theorem truncated_of_nonneg {value : ℚ} (nonneg : 0 ≤ value) : truncated value = ⌊value⌋ := by
  rw [truncated,Int.tdiv_eq_ediv_of_nonneg (Rat.num_nonneg.mpr nonneg),Rat.floor_def']

theorem truncated_le {value : ℚ} (nonneg : 0 ≤ value) : (truncated value : ℚ) ≤ value := by
  rw [truncated_of_nonneg nonneg]
  exact Int.floor_le value

theorem truncated_pos {value : ℚ} (positive : 0 < truncated value) : 0 < value := by
  by_contra nonpos
  have numerator : value.num ≤ 0 := Rat.num_nonpos.mpr (not_lt.mp nonpos)
  have quotient := Int.tdiv_nonneg (neg_nonneg.mpr numerator) (Int.natCast_nonneg value.den)
  rw [Int.neg_tdiv] at quotient
  rw [truncated] at positive
  omega

theorem truncated_neg (value : ℚ) : truncated (-value) = -truncated value := by
  rw [truncated,truncated,Rat.neg_num,Rat.neg_den,Int.neg_tdiv]

theorem le_truncated_iff {number : ℤ} (positive : 0 < number) : number ≤ truncated value ↔ (number : ℚ) ≤ value := by
  by_cases nonneg : 0 ≤ value
  · rw [truncated_of_nonneg nonneg]
    exact Int.le_floor
  · have low : truncated value ≤ 0 := by
      rw [← neg_neg value,truncated_neg,truncated_of_nonneg (by linarith)]
      have floor := Int.floor_nonneg.mpr (show 0 ≤ -value by linarith)
      omega
    have numberPos : (0 : ℚ) < number := by exact_mod_cast positive
    refine iff_of_false (by omega) ?_
    intro reaches
    linarith

theorem truncated_nonneg_iff : 0 ≤ truncated value ↔ -1 < value := by
  by_cases nonneg : 0 ≤ value
  · rw [truncated_of_nonneg nonneg]
    exact iff_of_true (Int.floor_nonneg.mpr nonneg) (by linarith)
  · have mirrored : truncated value = -⌊-value⌋ := by
      rw [← truncated_of_nonneg (show 0 ≤ -value by linarith),truncated_neg,neg_neg]
    have floor : ⌊-value⌋ < 1 ↔ -value < 1 := by exact_mod_cast @Int.floor_lt _ _ _ _ 1 (-value)
    rw [mirrored]
    constructor
    · intro least
      have := floor.mp (by omega)
      linarith
    · intro above
      have := floor.mpr (by linarith)
      omega

/-- A time that a conversion reaches was in range. -/
theorem le_toInt_toLongLong_iff {number : ℤ} (nonneg : 0 ≤ number) :
    number ≤ (toLongLong value).toInt ↔ number ≤ truncated value ∧ value < 2 ^ 63 := by
  have range : truncated value < 2 ^ 63 ↔ value < 2 ^ 63 := by
    rw [← not_le,← not_le,le_truncated_iff (by norm_num)]
    norm_num
  rw [← range,toLongLong]
  split
  · rename_i fits
    rw [Int64.toInt_ofInt_of_le (by simpa using fits.1) (by simpa using fits.2)]
    exact (and_iff_left fits.2).symm
  · rename_i overflows
    have least : Int64.minValue.toInt = -2 ^ 63 := by decide
    rw [least]
    refine iff_of_false (by omega) ?_
    rintro ⟨reaches,small⟩
    exact overflows ⟨by omega,small⟩

end Vexjine.Floats
