import Vexjine.Elimination
import Vexjine.Scans

/-!
# Prediction by auto-regression

The coefficients of the auto-regression over a window of measurements: the equations of Yule and Walker and
their solver. The arithmetic is exact.
-/

namespace Vexjine.AutoRegressions
open Elimination

/-- `AutoRegression(int _length)`. -/
def degree (length : ℤ) : ℤ := length - 2

def mean (length : ℤ) (inputseries : ℕ → ℚ) : ℚ := (∑ t ∈ Finset.range length.toNat, inputseries t) / length

def normalizedVector (length : ℤ) (inputseries : ℕ → ℚ) (t : ℕ) : ℚ := inputseries t - mean length inputseries

/-- How the solver ends: it reports a failure or a success, divides by a pivot that is 0, or uses elements in
    front of the arrays. -/
inductive Outcome where
  | failed
  | solved (coefficients : ℕ → ℚ)
  | dividesByZero
  | outOfBounds

namespace YulesWalkerAutoRegression

/-- The matrix and the coefficients that `autoregress` hands to the solver. The loops have `k` from `j` on, and the
    other half of the matrix is copied. -/
def equations (length : ℤ) (normalizedVector : ℕ → ℚ) : System ℚ where
  matrix j k := (∑ i ∈ Finset.Ico (degree length - 1).toNat (length - 1).toNat,
    normalizedVector (i - min j k) * normalizedVector (i - max j k)) / (length - degree length : ℤ)
  right j := (∑ i ∈ Finset.Ico (degree length - 1).toNat (length - 1).toNat,
    normalizedVector (i + 1) * normalizedVector (i - j)) / (length - degree length : ℤ)

/-- The first row from row `i` on whose entry in column `i` is the greatest. -/
def maxi (size : ℕ) (system : System ℚ) (i : ℕ) : ℕ :=
  Scans.leastIndex (fun j => -|system.matrix j i|) i (List.range' (i + 1) (size - (i + 1)))

def SolveLE (degree : ℤ) (system : System ℚ) : Outcome :=
  if degree ≤ 0 then .outOfBounds
  else match system.reduce (maxi degree.toNat) degree.toNat (degree.toNat - 1) 0 with
    | none => .failed
    | some upper =>
      -- The back substitution divides by every pivot, the last one included.
      if ∃ i ∈ List.range degree.toNat, upper.matrix i i = 0 then .dividesByZero
      else .solved (upper.substitute degree.toNat degree.toNat upper.right)

def autoregress (length : ℤ) (normalizedVector : ℕ → ℚ) : Outcome :=
  SolveLE (degree length) (equations length normalizedVector)

end YulesWalkerAutoRegression

open YulesWalkerAutoRegression

/-- Reported coefficients solve the equations, no pivot is 0, and no element outside the arrays is used. -/
def Sound (length : ℤ) (normalizedVector : ℕ → ℚ) : Prop :=
  match autoregress length normalizedVector with
  | .failed => True
  | .solved coefficients => (equations length normalizedVector).Solves (degree length).toNat coefficients
  | .dividesByZero => False
  | .outOfBounds => False

/-! ## The solver -/

private theorem chooses_maxi (size : ℕ) : System.Chooses (maxi size) size := by
  intro system i inside
  have mem := Scans.leastIndex_mem (fun j => -|system.matrix j i|) i (List.range' (i + 1) (size - (i + 1)))
  have le := Scans.leastIndex_le (fun j => -|system.matrix j i|) i (List.range' (i + 1) (size - (i + 1)))
  rw [← maxi] at mem le
  rw [List.mem_range'_1] at mem
  refine ⟨by omega,by omega,fun zero row after bound => ?_⟩
  have greatest : |system.matrix row i| ≤ |system.matrix (maxi size system i) i| := by
    rcases eq_or_ne row i with rfl | different
    · exact neg_le_neg_iff.mp le.1
    · exact neg_le_neg_iff.mp (le.2 row (List.mem_range'_1.mpr (by omega)))
  rw [zero,abs_zero] at greatest
  exact abs_nonpos_iff.mp greatest

/-- The solver for a system with at least one equation. It fails exactly if the columns before the last one are
    dependent, and divides by 0 exactly if all columns are but those are not. -/
theorem solveLE_spec {degree : ℤ} (positive : 0 < degree) (system : System ℚ) :
    (SolveLE degree system = .failed ∧ system.Dependent degree.toNat (degree.toNat - 1)) ∨
    (SolveLE degree system = .dividesByZero ∧ ¬ system.Dependent degree.toNat (degree.toNat - 1) ∧
      system.Dependent degree.toNat degree.toNat) ∨
    ∃ coefficients, SolveLE degree system = .solved coefficients ∧ system.Solves degree.toNat coefficients ∧
      ¬ system.Dependent degree.toNat degree.toNat := by
  obtain ⟨size,size_eq⟩ : ∃ size : ℕ, degree.toNat = size + 1 := ⟨degree.toNat - 1,by omega⟩
  have start : system.Echelon (size + 1) 0 :=
    ⟨fun i before => absurd before (Nat.not_lt_zero i),fun i before => absurd before (Nat.not_lt_zero i)⟩
  have reduction := System.reduce_spec (chooses_maxi (size + 1)) size system 0 (by omega) start
  rw [SolveLE,if_neg positive.not_ge,size_eq,Nat.add_sub_cancel]
  rw [zero_add] at reduction
  rcases reduction with ⟨upper,found,echelon,solves,kernel⟩ | ⟨fails,dependent⟩
  · rw [found]
    have independent : ¬ system.Dependent (size + 1) size := fun dependent =>
      echelon.not_dependent (Nat.le_succ size) ((System.dependent_congr kernel).mpr dependent)
    by_cases last : upper.matrix size size = 0
    · have zero : ∃ i ∈ List.range (size + 1), upper.matrix i i = 0 := ⟨size,by simp,last⟩
      refine .inr (.inl ⟨if_pos zero,independent,(System.dependent_congr kernel).mp ?_⟩)
      refine echelon.dependent_succ (Nat.lt_succ_self size) fun row after bound => ?_
      obtain rfl : row = size := by omega
      exact last
    · have full : upper.Echelon (size + 1) (size + 1) := by
        refine ⟨fun i before => ?_,fun i before j after bound => echelon.below i (by omega) j after bound⟩
        rcases Nat.lt_succ_iff_lt_or_eq.mp before with earlier | rfl
        exacts [echelon.pivot i earlier,last]
      have nonzero : ¬ ∃ i ∈ List.range (size + 1), upper.matrix i i = 0 := fun ⟨i,member,zero⟩ =>
        full.pivot i (List.mem_range.mp member) zero
      refine .inr (.inr ⟨_,if_neg nonzero,(solves _).mp (System.solves_substitute full),fun dependent => ?_⟩)
      exact full.not_dependent le_rfl ((System.dependent_congr kernel).mpr dependent)
  · rw [fails]
    exact .inl ⟨rfl,dependent⟩

/-! ## The equations -/

section Equations

variable {length : ℤ} {x : ℕ → ℚ}

/-- A vector is mapped to 0 by the matrix exactly if the two lagged windows are orthogonal to it. -/
private theorem kernel_iff {size : ℕ} (length_eq : length = size + 2) (positive : 0 < size) (v : ℕ → ℚ) :
    (∀ row < size, (equations length x).product size row v = 0) ↔
      (∑ k ∈ Finset.range size, x (size - 1 - k) * v k = 0 ∧ ∑ k ∈ Finset.range size, x (size - k) * v k = 0) := by
  have low : (degree length - 1).toNat = size - 1 := by rw [degree]; omega
  have high : (length - 1).toNat = size - 1 + 1 + 1 := by omega
  have samples : ((length - degree length : ℤ) : ℚ) = 2 := by
    rw [degree]
    push_cast
    ring
  have product : ∀ row, (equations length x).product size row v =
      (x (size - 1 - row) * (∑ k ∈ Finset.range size, x (size - 1 - k) * v k) +
        x (size - row) * ∑ k ∈ Finset.range size, x (size - k) * v k) / 2 := fun row => by
    rw [System.product,Finset.mul_sum,Finset.mul_sum,← Finset.sum_add_distrib,Finset.sum_div]
    refine Finset.sum_congr rfl fun k _ => ?_
    have pair : ∀ i, x (i - min row k) * x (i - max row k) = x (i - row) * x (i - k) := fun i => by
      rcases le_total row k with le | le
      · rw [min_eq_left le,max_eq_right le]
      · rw [min_eq_right le,max_eq_left le,mul_comm]
    rw [equations,low,high,samples]
    simp only [pair]
    rw [Finset.sum_Ico_succ_top (by omega),Finset.sum_Ico_succ_top le_rfl,Finset.Ico_self,Finset.sum_empty,
      Nat.sub_add_cancel positive]
    ring
  constructor
  · intro zero
    have squares : (∑ k ∈ Finset.range size, x (size - 1 - k) * v k) ^ 2 + (∑ k ∈ Finset.range size, x (size - k) * v k) ^ 2 =
        2 * ∑ row ∈ Finset.range size, v row * (equations length x).product size row v := by
      have terms : ∀ row ∈ Finset.range size, v row * (equations length x).product size row v =
          (x (size - 1 - row) * v row * (∑ k ∈ Finset.range size, x (size - 1 - k) * v k) +
            x (size - row) * v row * ∑ k ∈ Finset.range size, x (size - k) * v k) / 2 := fun row _ => by
        rw [product]
        ring
      rw [Finset.sum_congr rfl terms,← Finset.sum_div,Finset.sum_add_distrib,← Finset.sum_mul,← Finset.sum_mul]
      ring
    have vanishes : ∑ row ∈ Finset.range size, v row * (equations length x).product size row v = 0 :=
      Finset.sum_eq_zero fun row member => by rw [zero row (Finset.mem_range.mp member),mul_zero]
    rw [vanishes,mul_zero] at squares
    have first := sq_nonneg (∑ k ∈ Finset.range size, x (size - 1 - k) * v k)
    have second := sq_nonneg (∑ k ∈ Finset.range size, x (size - k) * v k)
    exact ⟨pow_eq_zero_iff two_ne_zero |>.mp (by linarith),pow_eq_zero_iff two_ne_zero |>.mp (by linarith)⟩
  · rintro ⟨first,second⟩ row -
    rw [product,first,second]
    ring

private theorem sum_range_eq {columns more : ℕ} {v : ℕ → ℚ} (zero : ∀ k, columns ≤ k → v k = 0) (le : columns ≤ more)
    (row : ℕ → ℚ) : ∑ k ∈ Finset.range more, row k * v k = ∑ k ∈ Finset.range columns, row k * v k :=
  (Finset.sum_subset (Finset.range_mono le) fun k _ outside => by
    rw [zero k (not_lt.mp (by simpa using outside)),mul_zero]).symm

/-- A vector with the given number of coordinates that is orthogonal to two rows. -/
private def Orthogonal (columns : ℕ) (first second : ℕ → ℚ) : Prop :=
  ∃ v : ℕ → ℚ, (∃ k < columns, v k ≠ 0) ∧ (∀ k, columns ≤ k → v k = 0) ∧
    ∑ k ∈ Finset.range columns, first k * v k = 0 ∧ ∑ k ∈ Finset.range columns, second k * v k = 0

private theorem dependent_iff {size columns : ℕ} (length_eq : length = size + 2) (positive : 0 < size)
    (le : columns ≤ size) : (equations length x).Dependent size columns ↔
      Orthogonal columns (fun k => x (size - 1 - k)) fun k => x (size - k) := by
  refine exists_congr fun v => and_congr_right fun _ => and_congr_right fun zero => ?_
  rw [kernel_iff length_eq positive,sum_range_eq zero le,sum_range_eq zero le]

private theorem Orthogonal.mono {columns more : ℕ} {first second : ℕ → ℚ} (orthogonal : Orthogonal columns first second)
    (le : columns ≤ more) : Orthogonal more first second := by
  obtain ⟨v,⟨k,before,nonzero⟩,zero,firstZero,secondZero⟩ := orthogonal
  exact ⟨v,⟨k,by omega,nonzero⟩,fun k after => zero k (by omega),by rw [sum_range_eq zero le,firstZero],
    by rw [sum_range_eq zero le,secondZero]⟩

private theorem not_orthogonal_zero (first second : ℕ → ℚ) : ¬ Orthogonal 0 first second := by
  rintro ⟨v,⟨k,before,-⟩,-⟩
  exact Nat.not_lt_zero k before

private theorem orthogonal_one_iff (first second : ℕ → ℚ) : Orthogonal 1 first second ↔ first 0 = 0 ∧ second 0 = 0 := by
  constructor
  · rintro ⟨v,⟨k,before,nonzero⟩,-,firstZero,secondZero⟩
    obtain rfl : k = 0 := by omega
    rw [Finset.sum_range_one] at firstZero secondZero
    exact ⟨(mul_eq_zero.mp firstZero).resolve_right nonzero,(mul_eq_zero.mp secondZero).resolve_right nonzero⟩
  · rintro ⟨firstZero,secondZero⟩
    refine ⟨fun k => if k = 0 then 1 else 0,⟨0,one_pos,by simp⟩,fun k after => if_neg (by omega),?_,?_⟩
    · simp [firstZero]
    · simp [secondZero]

private theorem orthogonal_two_of {first second : ℕ → ℚ} (a b : ℚ) (nonzero : a ≠ 0 ∨ b ≠ 0)
    (firstZero : first 0 * a + first 1 * b = 0) (secondZero : second 0 * a + second 1 * b = 0) :
    Orthogonal 2 first second := by
  refine ⟨fun k => if k = 0 then a else if k = 1 then b else 0,?_,fun k after => ?_,?_,?_⟩
  · rcases nonzero with left | right
    · exact ⟨0,two_pos,by simpa using left⟩
    · exact ⟨1,one_lt_two,by simpa using right⟩
  · simp [show k ≠ 0 by omega,show k ≠ 1 by omega]
  · simpa [Finset.sum_range_succ] using firstZero
  · simpa [Finset.sum_range_succ] using secondZero

private theorem orthogonal_two_iff (first second : ℕ → ℚ) :
    Orthogonal 2 first second ↔ first 0 * second 1 = first 1 * second 0 := by
  constructor
  · rintro ⟨v,⟨k,before,nonzero⟩,-,firstZero,secondZero⟩
    rw [Finset.sum_range_succ,Finset.sum_range_one] at firstZero secondZero
    have left : (first 0 * second 1 - first 1 * second 0) * v 0 = 0 := by
      linear_combination second 1 * firstZero - first 1 * secondZero
    have right : (first 0 * second 1 - first 1 * second 0) * v 1 = 0 := by
      linear_combination first 0 * secondZero - second 0 * firstZero
    refine sub_eq_zero.mp ?_
    interval_cases k
    exacts [(mul_eq_zero.mp left).resolve_right nonzero,(mul_eq_zero.mp right).resolve_right nonzero]
  · intro same
    by_cases firstRow : first 0 = 0 ∧ first 1 = 0
    · by_cases secondRow : second 0 = 0 ∧ second 1 = 0
      · exact orthogonal_two_of 1 0 (.inl one_ne_zero) (by simp [firstRow.1]) (by simp [secondRow.1])
      · refine orthogonal_two_of (second 1) (-second 0) ?_ (by simp [firstRow.1,firstRow.2]) (by ring)
        rw [not_and_or] at secondRow
        exact secondRow.symm.imp_right neg_ne_zero.mpr
    · refine orthogonal_two_of (first 1) (-first 0) ?_ (by ring) (by linear_combination -same)
      rw [not_and_or] at firstRow
      exact firstRow.symm.imp_right neg_ne_zero.mpr

/-- Three columns of two rows are dependent. -/
private theorem orthogonal_three (first second : ℕ → ℚ) : Orthogonal 3 first second := by
  by_cases two : first 0 * second 1 = first 1 * second 0
  · exact ((orthogonal_two_iff first second).mpr two).mono (by omega)
  · refine ⟨fun k => if k = 0 then first 1 * second 2 - first 2 * second 1
      else if k = 1 then first 2 * second 0 - first 0 * second 2
      else if k = 2 then first 0 * second 1 - first 1 * second 0 else 0,⟨2,by omega,?_⟩,fun k after => ?_,?_,?_⟩
    · simpa using sub_ne_zero.mpr two
    · simp [show k ≠ 0 by omega,show k ≠ 1 by omega,show k ≠ 2 by omega]
    · simp only [Finset.sum_range_succ,Finset.sum_range_zero]
      norm_num
      ring
    · simp only [Finset.sum_range_succ,Finset.sum_range_zero]
      norm_num
      ring

/-- What the solver does with the equations of any series. -/
private theorem sound_iff_dependent (length : ℤ) (x : ℕ → ℚ) : Sound length x ↔ 0 < degree length ∧
    ((equations length x).Dependent (degree length).toNat ((degree length).toNat - 1) ∨
      ¬ (equations length x).Dependent (degree length).toNat (degree length).toNat) := by
  rcases le_or_gt (degree length) 0 with few | positive
  · simp [Sound,autoregress,SolveLE,few,few.not_gt]
  · rw [Sound,autoregress,and_iff_right positive]
    rcases solveLE_spec positive (equations length x) with ⟨ends,dependent⟩ | ⟨ends,before,all⟩ | ⟨c,ends,solves,independent⟩
    · simp [ends,dependent]
    · simp [ends,before,all]
    · simp [ends,solves,independent]

end Equations

/-- The equations are made from two samples. Two measurements or less have none; five or less can leave a last
    pivot of 0, which is not tested; for more the solver always fails. -/
theorem sound_iff (length : ℤ) (x : ℕ → ℚ) : Sound length x ↔
    (length = 3 ∧ (x 0 ≠ 0 ∨ x 1 ≠ 0)) ∨
      (length = 4 ∧ (x 1 = 0 ∧ x 2 = 0 ∨ x 1 * x 1 ≠ x 0 * x 2)) ∨
      (length = 5 ∧ x 2 * x 2 = x 1 * x 3) ∨ 6 ≤ length := by
  rw [sound_iff_dependent]
  rcases le_or_gt length 2 with few | several
  · have none : ¬ 0 < degree length := by rw [degree]; omega
    simp only [none,false_and,false_iff]
    omega
  obtain ⟨size,length_eq⟩ : ∃ size : ℕ, length = size + 2 := ⟨(length - 2).toNat,by omega⟩
  have size_eq : (degree length).toNat = size := by rw [degree]; omega
  have positive : 0 < degree length := by rw [degree]; omega
  rw [size_eq,and_iff_right positive,dependent_iff length_eq (by omega) (Nat.sub_le size 1),
    dependent_iff length_eq (by omega) le_rfl]
  match size with
  | 0 => omega
  | 1 =>
    have known : length = 3 := by omega
    simp [known,not_orthogonal_zero,orthogonal_one_iff,imp_iff_not_or]
  | 2 =>
    have known : length = 4 := by omega
    simp [known,orthogonal_one_iff,orthogonal_two_iff]
  | 3 =>
    have known : length = 5 := by omega
    simp [known,orthogonal_two_iff,orthogonal_three]
  | size + 4 =>
    have many : 6 ≤ length := by omega
    have dependent := (orthogonal_three (fun k => x (size + 4 - 1 - k)) fun k => x (size + 4 - k)).mono
      (show 3 ≤ size + 4 - 1 by omega)
    exact iff_of_true (.inl dependent) (.inr (.inr (.inr many)))

/-- Three equal measurements: the only pivot is 0. -/
theorem equal_measurements_divide_by_zero :
    autoregress 3 (normalizedVector 3 fun _ => 5) = .dividesByZero ∧ ¬ Sound 3 (normalizedVector 3 fun _ => 5) := by
  have ends : autoregress 3 (normalizedVector 3 fun _ => 5) = .dividesByZero := by
    have zero : normalizedVector 3 (fun _ => 5) = fun _ => 0 := by
      funext t
      have three : Int.toNat 3 = 3 := rfl
      norm_num [normalizedVector,mean,three]
    simp [autoregress,SolveLE,degree,System.reduce,zero,equations]
  exact ⟨ends,by rw [Sound,ends]; exact not_false⟩

end Vexjine.AutoRegressions
