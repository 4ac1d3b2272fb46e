import Mathlib.Tactic

/-!
# Samples

Means and deviations of samples, the lines that fit points best, and samples in
buckets, over any field.
-/

/-! ## Deviations from the mean

The mean of some values, and the squared deviations from it, over a field of characteristic 0. One value more
changes the squared deviations by a term in which the old mean is the only thing that is known of the others. -/

namespace Vexjine.Deviations

variable {K : Type*} [Field K]

section Definitions
variable (values : Multiset K)

def mean : K := values.sum / values.card

def squaredDeviations : K := (values.map fun value => (value - mean values) ^ 2).sum

/-- The unbiased one. -/
def sampleVariance : K := squaredDeviations values / (values.card - 1)

end Definitions

variable {values : Multiset K}

/-- The deviations from any center. -/
theorem sum_sub_sq (values : Multiset K) (center : K) :
    (values.map fun value => (value - center) ^ 2).sum =
      (values.map (· ^ 2)).sum - 2 * center * values.sum + values.card * center ^ 2 := by
  induction values using Multiset.induction_on with
  | empty => simp
  | cons value values ih =>
    rw [Multiset.map_cons,Multiset.sum_cons,ih]
    simp only [Multiset.map_cons,Multiset.sum_cons,Multiset.card_cons,Nat.cast_add,Nat.cast_one]
    ring

theorem squaredDeviations_nonneg [LinearOrder K] [IsStrictOrderedRing K] (values : Multiset K) :
    0 ≤ squaredDeviations values := by
  refine Multiset.sum_nonneg ?_
  intro square member
  obtain ⟨value,-,rfl⟩ := Multiset.mem_map.mp member
  exact sq_nonneg _

variable [CharZero K]

theorem squaredDeviations_eq (values : Multiset K) :
    squaredDeviations values = (values.map (· ^ 2)).sum - values.sum ^ 2 / values.card := by
  rw [squaredDeviations,sum_sub_sq,mean]
  by_cases none : values.card = 0
  · simp [Multiset.card_eq_zero.mp none]
  · have nonzero : (values.card : K) ≠ 0 := Nat.cast_ne_zero.mpr none
    field_simp
    ring

theorem squaredDeviations_cons (value : K) (values : Multiset K) :
    squaredDeviations (value ::ₘ values) = squaredDeviations values +
      (values.sum - values.card * value) ^ 2 / ((values.card + 1) * values.card) := by
  have nextNonzero : (values.card + 1 : K) ≠ 0 := Nat.cast_add_one_ne_zero values.card
  rw [squaredDeviations_eq,squaredDeviations_eq]
  simp only [Multiset.map_cons,Multiset.sum_cons,Multiset.card_cons,Nat.cast_add,Nat.cast_one]
  by_cases none : values.card = 0
  · simp [Multiset.card_eq_zero.mp none]
  · have nonzero : (values.card : K) ≠ 0 := Nat.cast_ne_zero.mpr none
    field_simp
    ring

end Vexjine.Deviations

/-! ## Least squares

The lines whose squared distances from some points add up to the least, over an ordered field. A line is one of
them when its residuals, and their products with the abscissas, add up to 0. -/

namespace Vexjine.LeastSquares

/-- The line `slope * x + intercept`. -/
structure Line (K : Type*) where
  slope : K
  intercept : K

variable {K Index : Type*} [Field K]

def Line.at (line : Line K) (abscissa : K) : K := line.slope * abscissa + line.intercept

section Points

variable (points : Finset Index) (x y : Index → K) (line : Line K)

def residual (i : Index) : K := y i - line.at (x i)

def error : K := ∑ i ∈ points, residual x y line i ^ 2

def IsLeastSquares [LE K] : Prop := ∀ other, error points x y line ≤ error points x y other

def sumX : K := ∑ i ∈ points, x i

def sumY : K := ∑ i ∈ points, y i

def sumXX : K := ∑ i ∈ points, x i * x i

def sumXY : K := ∑ i ∈ points, x i * y i

/-- How the ordinates follow the abscissas; 0 when they have no trend. -/
def trend : K := points.card * sumXY points x y - sumX points x * sumY points y

def spread : K := points.card * sumXX points x - sumX points x * sumX points x

end Points

variable {points : Finset Index} {x y : Index → K} {line : Line K}

theorem sum_residual : ∑ i ∈ points, residual x y line i =
    sumY points y - (line.slope * sumX points x + points.card * line.intercept) := by
  simp only [residual,Line.at,sumY,sumX,Finset.sum_sub_distrib,Finset.sum_add_distrib,Finset.mul_sum,
    Finset.sum_const,nsmul_eq_mul]

theorem sum_mul_residual : ∑ i ∈ points, x i * residual x y line i =
    sumXY points x y - (line.slope * sumXX points x + line.intercept * sumX points x) := by
  simp only [sumXY,sumXX,sumX,Finset.mul_sum,← Finset.sum_add_distrib,← Finset.sum_sub_distrib]
  refine Finset.sum_congr rfl fun i _ => ?_
  rw [residual,Line.at]
  ring

/-- The error of a line that is moved by another one. -/
theorem error_moved (line change : Line K) :
    error points x y ⟨line.slope + change.slope,line.intercept + change.intercept⟩ =
      error points x y line + (∑ i ∈ points, change.at (x i) ^ 2) -
        2 * (change.slope * ∑ i ∈ points, x i * residual x y line i +
          change.intercept * ∑ i ∈ points, residual x y line i) := by
  simp only [error,Finset.mul_sum,← Finset.sum_add_distrib,← Finset.sum_sub_distrib]
  refine Finset.sum_congr rfl fun i _ => ?_
  simp only [residual,Line.at]
  ring

section Ordered

variable [LinearOrder K] [IsStrictOrderedRing K]

/-- A square outgrows what is linear. -/
private theorem eq_zero_of_linear_le {square linear : K} (nonneg : 0 ≤ square)
    (le : ∀ factor : K, 2 * (factor * linear) ≤ factor ^ 2 * square) : linear = 0 := by
  have bound := le (linear / (square + 1))
  have positive : 0 < square + 1 := by linarith
  have cleared : 2 * linear ^ 2 * (square + 1) ≤ linear ^ 2 * square := by
    rw [div_pow,div_mul_eq_mul_div,div_mul_eq_mul_div,mul_div_assoc',
      div_le_div_iff₀ positive (pow_pos positive 2)] at bound
    nlinarith [bound,positive]
  have small : linear ^ 2 * (square + 2) ≤ 0 := by linarith
  have square_nonneg := sq_nonneg linear
  have zero : linear ^ 2 = 0 := by nlinarith
  exact pow_eq_zero_iff two_ne_zero |>.mp zero

/-- The normal equations. -/
theorem isLeastSquares_iff : IsLeastSquares points x y line ↔
    ∑ i ∈ points, residual x y line i = 0 ∧ ∑ i ∈ points, x i * residual x y line i = 0 := by
  constructor
  · intro least
    have moved : ∀ (change : Line K) (factor : K),
        2 * (factor * (change.slope * ∑ i ∈ points, x i * residual x y line i +
          change.intercept * ∑ i ∈ points, residual x y line i)) ≤
        factor ^ 2 * ∑ i ∈ points, change.at (x i) ^ 2 := by
      intro change factor
      have le := least ⟨line.slope + factor * change.slope,line.intercept + factor * change.intercept⟩
      have scaled : ∑ i ∈ points, (Line.mk (factor * change.slope) (factor * change.intercept)).at (x i) ^ 2 =
          factor ^ 2 * ∑ i ∈ points, change.at (x i) ^ 2 := by
        rw [Finset.mul_sum]
        refine Finset.sum_congr rfl fun i _ => ?_
        simp only [Line.at]
        ring
      rw [error_moved line ⟨factor * change.slope,factor * change.intercept⟩,scaled] at le
      linarith
    have squares : ∀ change : Line K, 0 ≤ ∑ i ∈ points, change.at (x i) ^ 2 := fun change =>
      Finset.sum_nonneg fun i _ => sq_nonneg _
    have level := eq_zero_of_linear_le (squares ⟨0,1⟩) (moved ⟨0,1⟩)
    have tilted := eq_zero_of_linear_le (squares ⟨1,0⟩) (moved ⟨1,0⟩)
    simp only [zero_mul,one_mul,zero_add,add_zero] at level tilted
    exact ⟨level,tilted⟩
  · rintro ⟨level,tilted⟩ other
    have moved : error points x y _ = _ := error_moved line ⟨other.slope - line.slope,other.intercept - line.intercept⟩
    rw [level,tilted] at moved
    simp only [add_sub_cancel,mul_zero,add_zero,sub_zero] at moved
    rw [moved]
    exact le_add_of_nonneg_right (Finset.sum_nonneg fun i _ => sq_nonneg _)

/-- The least lines at any abscissa, in terms of the sums. -/
theorem isLeastSquares_iff_of_spread (several : (points.card : K) ≠ 0) (spread_ne : spread points x ≠ 0) :
    IsLeastSquares points x y line ↔
      line.slope = trend points x y / spread points x ∧
      line.intercept = (sumY points y - line.slope * sumX points x) / points.card := by
  rw [isLeastSquares_iff,sum_residual,sum_mul_residual,eq_div_iff spread_ne,eq_div_iff several]
  constructor
  · rintro ⟨level,tilted⟩
    refine ⟨?_,by linear_combination -level⟩
    rw [trend,spread]
    linear_combination sumX points x * level - (points.card : K) * tilted
  · rintro ⟨slope,intercept⟩
    refine ⟨by linear_combination -intercept,?_⟩
    rw [trend,spread] at slope
    apply mul_left_cancel₀ several
    linear_combination -slope - sumX points x * intercept

end Ordered

end Vexjine.LeastSquares

/-! ## Elements assigned to buckets

Each of finitely many elements is in a bucket; how many elements a bucket has, and how that changes when an element
changes its bucket or buckets are renamed. -/

namespace Vexjine.Assignments

variable {Bucket : Type*} [DecidableEq Bucket]

/-- The number of elements of the bucket. -/
def count (size : ℕ) (assigned : ℕ → Bucket) (bucket : Bucket) : ℕ :=
  ((Finset.range size).filter fun k => assigned k = bucket).card

variable {size : ℕ} {assigned : ℕ → Bucket} {bucket other : Bucket} {i : ℕ}

theorem count_pos_iff : 0 < count size assigned bucket ↔ ∃ k < size, assigned k = bucket := by
  rw [count,Finset.card_pos]
  constructor
  · rintro ⟨k,member⟩
    obtain ⟨inside,same⟩ := Finset.mem_filter.mp member
    exact ⟨k,Finset.mem_range.mp inside,same⟩
  · rintro ⟨k,inside,same⟩
    exact ⟨k,Finset.mem_filter.mpr ⟨Finset.mem_range.mpr inside,same⟩⟩

theorem count_le (size : ℕ) (assigned : ℕ → Bucket) (bucket : Bucket) : count size assigned bucket ≤ size :=
  (Finset.card_filter_le _ _).trans (Finset.card_range size).le

theorem count_update_of_ne (notOld : assigned i ≠ bucket) (notNew : other ≠ bucket) :
    count size (Function.update assigned i other) bucket = count size assigned bucket := by
  refine congrArg Finset.card (Finset.filter_congr fun k _ => ?_)
  rcases eq_or_ne k i with rfl | different
  · simp [notOld,notNew]
  · rw [Function.update_of_ne different]

theorem count_update_new (inside : i < size) (notOld : assigned i ≠ bucket) :
    count size (Function.update assigned i bucket) bucket = count size assigned bucket + 1 := by
  have added : (Finset.range size).filter (fun k => Function.update assigned i bucket k = bucket) =
      insert i ((Finset.range size).filter fun k => assigned k = bucket) := by
    ext k
    rcases eq_or_ne k i with rfl | different
    · simp [inside]
    · simp [different]
  rw [count,added,Finset.card_insert_of_notMem (by simp [notOld]),count]

theorem count_update_old (inside : i < size) (notNew : other ≠ assigned i) :
    count size (Function.update assigned i other) (assigned i) + 1 = count size assigned (assigned i) := by
  have back : Function.update (Function.update assigned i other) i (assigned i) = assigned := by simp
  have notOld : Function.update assigned i other i ≠ assigned i := by simpa using notNew
  rw [← count_update_new inside notOld,back]

theorem count_rename {rename : Bucket → Bucket} {renamed : ℕ → Bucket} (injective : Function.Injective rename)
    (renames : ∀ k < size, renamed k = rename (assigned k)) :
    count size renamed (rename bucket) = count size assigned bucket := by
  refine congrArg Finset.card (Finset.filter_congr fun k member => ?_)
  rw [renames k (Finset.mem_range.mp member)]
  exact injective.eq_iff

/-- The elements of the bucket, listed in order. -/
theorem length_filter (size : ℕ) (assigned : ℕ → Bucket) (bucket : Bucket) :
    ((List.range size).filter fun k => assigned k = bucket).length = count size assigned bucket := by
  rw [count,← List.toFinset_card_of_nodup (List.nodup_range.filter _),List.toFinset_filter,List.toFinset_range]
  simp

/-- A set of buckets with all the ones before them is the set of the first ones. -/
theorem eq_range_card {buckets : Finset ℕ} (closed : ∀ last ∈ buckets, ∀ first < last, first ∈ buckets) :
    buckets = Finset.range buckets.card := by
  refine Finset.eq_of_subset_of_card_le (fun last member => ?_) (Finset.card_range _).le
  have before : Finset.range (last + 1) ⊆ buckets := fun first inside => by
    rcases (Nat.lt_succ_iff.mp (Finset.mem_range.mp inside)).lt_or_eq with smaller | rfl
    · exact closed last member first smaller
    · exact member
  have fewer := Finset.card_le_card before
  rw [Finset.card_range] at fewer
  exact Finset.mem_range.mpr fewer

end Vexjine.Assignments
