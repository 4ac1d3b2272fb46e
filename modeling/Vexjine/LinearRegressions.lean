import Vexjine.Floats
import Vexjine.Samples

/-!
# Prediction by linear regression

The regression of a window of measurements on their positions. The sums over the positions are made once, in
unsigned and signed machine integers; the arithmetic on measurements is exact, and nothing is said of rounded doubles.
-/

namespace Vexjine.LinearRegressions
open LeastSquares

structure LinearRegression where
  size : UInt32
  Sx : ℤ
  Sxx : ℤ

/-- The loop of the constructor from `i` on; none when it does not end within the given number of tests. The
    squares are unsigned. -/
def accumulate (size : UInt32) : ℕ → UInt32 → ℤ → ℤ → Option LinearRegression
  | 0, _, _, _ => none
  | tests + 1, i, Sx, Sxx =>
    if i ≤ size then accumulate size tests (i + 1) (Sx + i.toNat) (Sxx + (i * i).toNat) else some ⟨size,Sx,Sxx⟩

def construct (size : UInt32) (tests : ℕ) : Option LinearRegression := accumulate size tests 1 0 0

namespace LinearRegression

variable (regression : LinearRegression) (buffer : ℕ → ℚ)

def Sy : ℚ := ∑ i ∈ Finset.range regression.size.toNat, buffer i

def Sxy : ℚ := ∑ i ∈ Finset.range regression.size.toNat, (i + 1) * buffer i

def denominator : ℤ := regression.size.toNat * regression.Sxx - regression.Sx * regression.Sx

/-- The number that is returned, before it is converted. A division by 0 gives none. -/
def extrapolated : Option ℚ :=
  if regression.denominator = 0 ∨ regression.size = 0 then none
  else
    let a := (regression.size.toNat * regression.Sxy buffer - regression.Sx * regression.Sy buffer) /
      regression.denominator
    let b := (regression.Sy buffer - a * regression.Sx) / regression.size.toNat
    some (a * (regression.size + 1).toNat + b)

def apply : Option ℤ := (regression.extrapolated buffer).map Floats.truncated

end LinearRegression

/-- The abscissa of a measurement. -/
def position (i : ℕ) : ℚ := i + 1

/-- The constructor ends, the denominator is not 0, and the line of least squares is evaluated behind the last
    measurement. -/
def Extrapolates (size : UInt32) (buffer : ℕ → ℚ) : Prop :=
  ∃ tests regression, construct size tests = some regression ∧ regression.denominator ≠ 0 ∧
    ∃ line, IsLeastSquares (Finset.range size.toNat) position buffer line ∧
      regression.extrapolated buffer = some (line.at (size.toNat + 1)) ∧
      regression.apply buffer = some (Floats.truncated (line.at (size.toNat + 1)))

/-! ## The sums over the positions -/

private def indices (count : ℕ) : ℤ := ∑ i ∈ Finset.range count, ((i : ℤ) + 1)

private def squares (count : ℕ) : ℤ := ∑ i ∈ Finset.range count, ((i : ℤ) + 1) ^ 2

private def wrappedSquares (count : ℕ) : ℤ := ∑ i ∈ Finset.range count, (((i : ℤ) + 1) ^ 2) % 2 ^ 32

private theorem two_mul_indices (count : ℕ) : 2 * indices count = count * (count + 1) := by
  induction count with
  | zero => rfl
  | succ count ih =>
    rw [indices,Finset.sum_range_succ,← indices]
    push_cast
    linarith

private theorem six_mul_squares (count : ℕ) : 6 * squares count = count * (count + 1) * (2 * count + 1) := by
  induction count with
  | zero => rfl
  | succ count ih =>
    rw [squares,Finset.sum_range_succ,← squares]
    push_cast
    linarith

private theorem wrappedSquares_of_lt {count : ℕ} (small : count < 65536) : wrappedSquares count = squares count := by
  refine Finset.sum_congr rfl fun i member => Int.emod_eq_of_lt (sq_nonneg _) ?_
  have before : (i : ℤ) + 1 < 65536 := by
    have inside := Finset.mem_range.mp member
    omega
  nlinarith

private theorem wrapped_le {value : ℤ} (nonneg : 0 ≤ value) : value % 2 ^ 32 ≤ value := by omega

private theorem wrappedSquares_lt {count : ℕ} (large : 65536 ≤ count) : wrappedSquares count < squares count :=
  Finset.sum_lt_sum (fun _ _ => wrapped_le (sq_nonneg _)) ⟨65535,Finset.mem_range.mpr large,by decide⟩

/-- As long as the squares are less than twice 2 ^ 32, each wraps once. -/
private theorem wrappedSquares_once (more : ℕ) (small : more ≤ 27146) :
    wrappedSquares (65535 + more) = squares (65535 + more) - more * 2 ^ 32 := by
  induction more with
  | zero => simpa using wrappedSquares_of_lt (show 65535 < 65536 by decide)
  | succ more ih =>
    have wraps : (((65535 + more : ℕ) : ℤ) + 1) ^ 2 % 2 ^ 32 = (((65535 + more : ℕ) : ℤ) + 1) ^ 2 - 2 ^ 32 := by
      have low : (2 : ℤ) ^ 32 ≤ (((65535 + more : ℕ) : ℤ) + 1) ^ 2 := by push_cast; nlinarith
      have high : (((65535 + more : ℕ) : ℤ) + 1) ^ 2 < 2 * 2 ^ 32 := by
        have bound : (((65535 + more : ℕ) : ℤ) + 1) ≤ 92681 := by omega
        nlinarith
      omega
    rw [← add_assoc,wrappedSquares,Finset.sum_range_succ,← wrappedSquares,ih (by omega),wraps,squares,squares,
      Finset.sum_range_succ]
    push_cast
    ring

private theorem wrappedSquares_le (more : ℕ) :
    wrappedSquares (92681 + more) ≤ wrappedSquares 92681 + more * 2 ^ 32 := by
  induction more with
  | zero => simp
  | succ more ih =>
    have wraps := Int.emod_lt_of_pos ((((92681 + more : ℕ) : ℤ) + 1) ^ 2) (show (0 : ℤ) < 2 ^ 32 by norm_num)
    rw [← add_assoc,wrappedSquares,Finset.sum_range_succ,← wrappedSquares]
    push_cast at *
    linarith

/-- The cubic falls, and changes its sign between 7585 and 7586. -/
private theorem cubic_ne_zero {more : ℤ} (nonneg : 0 ≤ more) (small : more ≤ 27146) :
    (65535 + more) * ((65535 + more) ^ 2 - 1) - 12 * 2 ^ 32 * more ≠ 0 := by
  have falls : (65535 + more) ^ 2 + (65535 + more) * 73121 + 73121 ^ 2 - 1 - 12 * 2 ^ 32 < 0 := by nlinarith
  rcases le_or_gt more 7585 with low | high
  · have product : 0 ≤ (7585 - more) * -((65535 + more) ^ 2 + (65535 + more) * 73120 + 73120 ^ 2 - 1 - 12 * 2 ^ 32) :=
      mul_nonneg (by omega) (by nlinarith)
    intro zero
    linarith
  · have product : (more - 7586) * ((65535 + more) ^ 2 + (65535 + more) * 73121 + 73121 ^ 2 - 1 - 12 * 2 ^ 32) ≤ 0 :=
      mul_nonpos_of_nonneg_of_nonpos (by omega) falls.le
    intro zero
    linarith

private theorem twelve_mul_spread (count : ℕ) :
    12 * (count * squares count - indices count * indices count) = (count : ℤ) ^ 2 * ((count : ℤ) ^ 2 - 1) := by
  linear_combination 2 * (count : ℤ) * six_mul_squares count -
    3 * (2 * indices count + count * (count + 1)) * two_mul_indices count

private theorem squares_spread_ne_zero {count : ℕ} (several : 2 ≤ count) :
    count * squares count - indices count * indices count ≠ 0 := by
  have twice : (2 : ℤ) ≤ count := by exact_mod_cast several
  have positive : (0 : ℤ) < (count : ℤ) ^ 2 * ((count : ℤ) ^ 2 - 1) := mul_pos (by positivity) (by nlinarith)
  have twelve := twelve_mul_spread count
  intro zero
  omega

/-- With the sums that the constructor makes, the denominator is 0 for one measurement only. -/
private theorem denominator_ne_zero {count : ℕ} (several : 2 ≤ count) :
    count * wrappedSquares count - indices count * indices count ≠ 0 := by
  have indices_eq := two_mul_indices count
  rcases lt_or_ge count 65536 with small | large
  · rw [wrappedSquares_of_lt small]
    exact squares_spread_ne_zero several
  · rcases le_or_gt count 92681 with middle | far
    · obtain ⟨more,rfl⟩ := Nat.exists_eq_add_of_le (show 65535 ≤ count by omega)
      rw [wrappedSquares_once more (by omega)]
      intro zero
      have product : (65535 + more : ℤ) * ((65535 + more) * ((65535 + more) ^ 2 - 1) - 12 * 2 ^ 32 * more) = 0 := by
        have twelve := twelve_mul_spread (65535 + more)
        push_cast at twelve zero
        linear_combination 12 * zero - twelve
      have cubic : ((65535 + more : ℤ)) * ((65535 + more) ^ 2 - 1) - 12 * 2 ^ 32 * more = 0 :=
        (mul_eq_zero.mp product).resolve_left (by omega)
      exact cubic_ne_zero (Int.natCast_nonneg more) (by omega) cubic
    · obtain ⟨more,rfl⟩ := Nat.exists_eq_add_of_le far.le
      have bound := wrappedSquares_le more
      have known : wrappedSquares 92681 = squares 92681 - 27146 * 2 ^ 32 := wrappedSquares_once 27146 le_rfl
      have value : squares 92681 = 265373716851741 := by
        have six := six_mul_squares 92681
        norm_num at six
        omega
      have four : 4 * (indices (92681 + more) * indices (92681 + more)) =
          (92681 + more : ℤ) ^ 2 * (92681 + more + 1) ^ 2 := by
        push_cast at indices_eq
        linear_combination (2 * indices (92681 + more) + (92681 + more) * (92681 + more + 1)) * indices_eq
      have nonneg : (0 : ℤ) ≤ more := Int.natCast_nonneg more
      have below : 4 * wrappedSquares (92681 + more) < (92681 + more : ℤ) * (92681 + more + 1) ^ 2 := by
        nlinarith [pow_nonneg nonneg 3]
      intro zero
      push_cast at zero
      nlinarith

/-! ## The regression -/

private theorem accumulate_eq {size : UInt32} (ends : size.toNat < 2 ^ 32 - 1) (tests : ℕ) :
    ∀ count ≤ size.toNat, accumulate size tests (UInt32.ofNat (count + 1)) (indices count) (wrappedSquares count) =
      if size.toNat - count < tests then some ⟨size,indices size.toNat,wrappedSquares size.toNat⟩ else none := by
  induction tests with
  | zero => intro count _; rfl
  | succ tests ih =>
    intro count le
    have number : (UInt32.ofNat (count + 1)).toNat = count + 1 := UInt32.toNat_ofNat_of_lt' (by rw [UInt32.size]; omega)
    have test : UInt32.ofNat (count + 1) ≤ size ↔ count < size.toNat := by
      rw [UInt32.le_iff_toNat_le,number,Nat.succ_le_iff]
    rw [accumulate]
    by_cases more : count < size.toNat
    · have index : indices count + (UInt32.ofNat (count + 1)).toNat = indices (count + 1) := by
        rw [number,indices,indices,Finset.sum_range_succ]
        push_cast
        rfl
      have square : wrappedSquares count + (UInt32.ofNat (count + 1) * UInt32.ofNat (count + 1)).toNat =
          wrappedSquares (count + 1) := by
        rw [UInt32.toNat_mul,number,wrappedSquares,wrappedSquares,Finset.sum_range_succ,← pow_two]
        push_cast
        rfl
      have next : UInt32.ofNat (count + 1) + 1 = UInt32.ofNat (count + 1 + 1) := (UInt32.ofNat_add (count + 1) 1).symm
      rw [if_pos (test.mpr more),index,square,next,ih (count + 1) more]
      exact if_congr (by omega) rfl rfl
    · have all : count = size.toNat := by omega
      rw [if_neg (test.not.mpr more),if_pos (by omega),all]

/-- The largest size is never passed. -/
private theorem accumulate_max {size : UInt32} (largest : 2 ^ 32 - 1 ≤ size.toNat) (tests : ℕ) :
    ∀ i Sx Sxx, accumulate size tests i Sx Sxx = none := by
  induction tests with
  | zero => intros; rfl
  | succ tests ih =>
    intro i Sx Sxx
    have again : i ≤ size := by
      rw [UInt32.le_iff_toNat_le]
      have bound := i.toNat_lt
      omega
    rw [accumulate,if_pos again,ih]

private def summed (size : UInt32) : LinearRegression := ⟨size,indices size.toNat,wrappedSquares size.toNat⟩

private theorem construct_eq {size : UInt32} (ends : size.toNat < 2 ^ 32 - 1) (tests : ℕ) :
    construct size tests = if size.toNat < tests then some (summed size) else none :=
  accumulate_eq ends tests 0 (Nat.zero_le _)

/-- What the constructor has to do with the property. -/
private theorem extrapolates_iff_summed (size : UInt32) (buffer : ℕ → ℚ) : Extrapolates size buffer ↔
    size.toNat < 2 ^ 32 - 1 ∧ (summed size).denominator ≠ 0 ∧
      ∃ line, IsLeastSquares (Finset.range size.toNat) position buffer line ∧
        (summed size).extrapolated buffer = some (line.at (size.toNat + 1)) := by
  constructor
  · rintro ⟨tests,regression,constructed,nonzero,line,least,extrapolated,-⟩
    rcases lt_or_ge size.toNat (2 ^ 32 - 1) with ends | largest
    · rw [construct_eq ends,Option.ite_none_right_eq_some] at constructed
      obtain ⟨-,rfl⟩ := Option.some.injEq .. ▸ constructed
      exact ⟨ends,nonzero,line,least,extrapolated⟩
    · rw [construct,accumulate_max largest] at constructed
      cases constructed
  · rintro ⟨ends,nonzero,line,least,extrapolated⟩
    refine ⟨size.toNat + 1,summed size,?_,nonzero,line,least,extrapolated,?_⟩
    · rw [construct_eq ends,if_pos (Nat.lt_succ_self _)]
    · rw [LinearRegression.apply,extrapolated,Option.map_some]

private theorem sums_position (count : ℕ) :
    sumX (Finset.range count) position = (indices count : ℚ) ∧
      sumXX (Finset.range count) position = (squares count : ℚ) := by
  constructor
  · simp [sumX,position,indices]
  · simp [sumXX,position,squares,pow_two]

/-- The line through points of the trend `rise` and the given spread, evaluated behind the last of them. -/
private def behind (count : ℕ) (mean rise spread : ℚ) : ℚ := rise / spread * ((count + 1) / 2) + mean

private theorem behind_inj {count : ℕ} {mean rise spread other : ℚ} (nonzero : spread ≠ 0) (otherNonzero : other ≠ 0) :
    behind count mean rise spread = behind count mean rise other ↔ rise = 0 ∨ spread = other := by
  have half : ((count : ℚ) + 1) / 2 ≠ 0 := by positivity
  rw [behind,behind,add_left_inj,mul_left_inj' half,div_eq_div_iff nonzero otherNonzero,mul_eq_mul_left_iff]
  constructor
  · rintro (same | zero)
    exacts [.inr same.symm,.inl zero]
  · rintro (zero | same)
    exacts [.inr zero,.inl same.symm]

section Window

variable {size : UInt32} {buffer : ℕ → ℚ}

private theorem at_last {slope : ℚ} (several : 2 ≤ size.toNat) :
    slope * (size.toNat + 1) + (sumY (Finset.range size.toNat) buffer - slope * indices size.toNat) / size.toNat =
      slope * ((size.toNat + 1) / 2) + sumY (Finset.range size.toNat) buffer / size.toNat := by
  have count : (size.toNat : ℚ) ≠ 0 := by
    have positive : 0 < size.toNat := by omega
    positivity
  have indices_eq : 2 * (indices size.toNat : ℚ) = size.toNat * (size.toNat + 1) := by
    exact_mod_cast two_mul_indices size.toNat
  field_simp
  linear_combination -slope * indices_eq

private theorem extrapolated_eq (several : 2 ≤ size.toNat) (ends : size.toNat < 2 ^ 32 - 1) :
    (summed size).extrapolated buffer = some (behind size.toNat (sumY (Finset.range size.toNat) buffer / size.toNat)
      (trend (Finset.range size.toNat) position buffer) (summed size).denominator) := by
  have nonzero : (summed size).denominator ≠ 0 := denominator_ne_zero several
  have size_ne : size ≠ 0 := by rintro rfl; simp at several
  have next : (size + 1).toNat = size.toNat + 1 := by
    rw [UInt32.toNat_add,UInt32.toNat_one]
    exact Nat.mod_eq_of_lt (by omega)
  have rise : (size.toNat : ℚ) * (summed size).Sxy buffer - (indices size.toNat : ℚ) * (summed size).Sy buffer =
      trend (Finset.range size.toNat) position buffer := by
    rw [trend,(sums_position _).1,Finset.card_range]
    rfl
  have defined : ¬ ((summed size).denominator = 0 ∨ (summed size).size = 0) := not_or.mpr ⟨nonzero,size_ne⟩
  have sums : (summed size).size = size ∧ (summed size).Sx = indices size.toNat ∧
      (summed size).Sy buffer = sumY (Finset.range size.toNat) buffer := ⟨rfl,rfl,rfl⟩
  rw [LinearRegression.extrapolated,if_neg defined]
  simp only [sums.1,sums.2.1,rise,next]
  push_cast
  rw [sums.2.2]
  exact congrArg some (at_last several)

private theorem spread_eq (size : UInt32) :
    spread (Finset.range size.toNat) position =
      ((size.toNat * squares size.toNat - indices size.toNat * indices size.toNat : ℤ) : ℚ) := by
  rw [spread,(sums_position _).1,(sums_position _).2,Finset.card_range]
  push_cast
  rfl

private theorem spread_ne_zero (several : 2 ≤ size.toNat) : spread (Finset.range size.toNat) position ≠ 0 := by
  rw [spread_eq]
  exact Int.cast_ne_zero.mpr (squares_spread_ne_zero several)

private theorem exists_line_iff (several : 2 ≤ size.toNat) (prediction : ℚ) :
    (∃ line, IsLeastSquares (Finset.range size.toNat) position buffer line ∧
      some prediction = some (line.at (size.toNat + 1))) ↔
    prediction = behind size.toNat (sumY (Finset.range size.toNat) buffer / size.toNat)
      (trend (Finset.range size.toNat) position buffer) (spread (Finset.range size.toNat) position) := by
  have count : ((Finset.range size.toNat).card : ℚ) ≠ 0 := by
    rw [Finset.card_range]
    exact Nat.cast_ne_zero.mpr (by omega)
  have value : ∀ line : Line ℚ, IsLeastSquares (Finset.range size.toNat) position buffer line →
      line.at (size.toNat + 1) = behind size.toNat (sumY (Finset.range size.toNat) buffer / size.toNat)
        (trend (Finset.range size.toNat) position buffer) (spread (Finset.range size.toNat) position) := by
    intro line least
    obtain ⟨slope,intercept⟩ := (isLeastSquares_iff_of_spread count (spread_ne_zero several)).mp least
    rw [Line.at,intercept,(sums_position _).1,Finset.card_range,at_last several,slope,behind]
  constructor
  · rintro ⟨line,least,same⟩
    rw [← value line least]
    exact Option.some.inj same
  · intro same
    obtain ⟨line,least⟩ : ∃ line, IsLeastSquares (Finset.range size.toNat) position buffer line :=
      ⟨⟨trend _ position buffer / spread _ position,(sumY _ buffer - _ * sumX _ position) / _⟩,
        (isLeastSquares_iff_of_spread count (spread_ne_zero several)).mpr ⟨rfl,rfl⟩⟩
    exact ⟨line,least,by rw [same,value line least]⟩

end Window

/-- The squares that the constructor adds are right as long as none of them wraps. -/
private theorem spread_eq_denominator_iff (size : UInt32) :
    ((summed size).denominator : ℚ) = spread (Finset.range size.toNat) position ↔ size.toNat < 65536 := by
  rw [spread_eq,Int.cast_inj,LinearRegression.denominator,summed,sub_left_inj]
  constructor
  · intro same
    by_contra large
    have less := wrappedSquares_lt (not_lt.mp large)
    have count_ne : (size.toNat : ℤ) ≠ 0 := by omega
    exact less.ne (mul_left_cancel₀ count_ne same)
  · intro small
    rw [wrappedSquares_of_lt small]

/-- A window of one measurement has no line, squares from 65536 on wrap, and the loop of the constructor does not
    end for the largest size. -/
theorem extrapolates_iff (size : UInt32) (buffer : ℕ → ℚ) : Extrapolates size buffer ↔
    2 ≤ size.toNat ∧ size.toNat < 2 ^ 32 - 1 ∧
      (size.toNat < 65536 ∨ trend (Finset.range size.toNat) position buffer = 0) := by
  rw [extrapolates_iff_summed]
  rcases Nat.lt_or_ge size.toNat 2 with few | several
  · -- The denominator of one measurement, or none, is 0.
    have zero : (summed size).denominator = 0 := by
      have known : ∀ count < 2, count * wrappedSquares count - indices count * indices count = 0 := by decide
      exact known size.toNat few
    simp only [zero,ne_eq,not_true_eq_false,false_and,and_false,false_iff,not_and]
    omega
  · have nonzero : (summed size).denominator ≠ 0 := denominator_ne_zero several
    simp only [several,true_and,nonzero,ne_eq,not_false_eq_true]
    refine and_congr_right fun ends => ?_
    rw [extrapolated_eq several ends,exists_line_iff several,
      behind_inj (Int.cast_ne_zero.mpr nonzero) (spread_ne_zero several),spread_eq_denominator_iff,or_comm]

theorem construct_unique {size : UInt32} {tests others : ℕ} {regression other : LinearRegression}
    (first : construct size tests = some regression) (second : construct size others = some other) : regression = other := by
  rcases lt_or_ge size.toNat (2 ^ 32 - 1) with ends | largest
  · rw [construct_eq ends,Option.ite_none_right_eq_some] at first second
    exact Option.some.inj (first.2.symm.trans second.2)
  · rw [construct,accumulate_max largest] at first
    cases first

theorem denominator_of_one {tests : ℕ} {regression : LinearRegression} (found : construct 1 tests = some regression) :
    regression.denominator = 0 := by
  have same : construct 1 2 = some ⟨1,1,1⟩ := by simp [construct,accumulate,UInt32.le_iff_toNat_le]
  rw [construct_unique found same]
  decide

/-- One measurement: the constructor ends, and the denominator is 0. -/
theorem one_measurement_not_extrapolated : (construct 1 2).map (·.denominator) = some 0 ∧
    ¬ Extrapolates 1 (fun _ => 5) := by
  refine ⟨by decide,?_⟩
  rintro ⟨tests,regression,found,nonzero,-⟩
  exact nonzero (denominator_of_one found)

end Vexjine.LinearRegressions
