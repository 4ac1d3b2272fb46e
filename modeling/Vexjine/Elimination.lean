import Mathlib.Tactic

/-!
# Gaussian elimination

Square systems of linear equations over an ordered field, solved by elimination with row exchange and back
substitution. The elimination keeps the solutions, for every right-hand side; it stops in a column that depends
on the ones before it.
-/

namespace Vexjine.Elimination

variable {K : Type*} [Field K]

/-- The entries by row and column, and the right-hand side. -/
structure System (K : Type*) where
  matrix : ℕ → ℕ → K
  right : ℕ → K

namespace System

/-- The product of a row and a vector. -/
def product (system : System K) (size row : ℕ) (x : ℕ → K) : K := ∑ k ∈ Finset.range size, system.matrix row k * x k

def Solves (system : System K) (size : ℕ) (x : ℕ → K) : Prop := ∀ row < size, system.product size row x = system.right row

/-- A vector that is not 0, only has the given number of coordinates, and is mapped to 0. -/
def Dependent (system : System K) (size columns : ℕ) : Prop :=
  ∃ x : ℕ → K, (∃ k < columns, x k ≠ 0) ∧ (∀ k, columns ≤ k → x k = 0) ∧ ∀ row < size, system.product size row x = 0

variable (system : System K)

def exchange (i j : ℕ) : System K where
  matrix row := system.matrix (Equiv.swap i j row)
  right row := system.right (Equiv.swap i j row)

/-- Subtracts multiples of row `i` from the rows below, so that column `i` becomes 0 there. -/
def eliminate (size i : ℕ) : System K where
  matrix j k := if i < j ∧ j < size then
      (if k = i then 0
      else if i < k ∧ k < size then system.matrix j k + -system.matrix j i / system.matrix i i * system.matrix i k
      else system.matrix j k)
    else system.matrix j k
  right j := if i < j ∧ j < size then system.right j + -system.matrix j i / system.matrix i i * system.right i
    else system.right j

/-- The steps of the back substitution for the rows below `count`, from the last one up. -/
def substitute (size : ℕ) : ℕ → (ℕ → K) → (ℕ → K)
  | 0, x => x
  | i + 1, x => substitute size i (Function.update x i
      ((x i - ∑ j ∈ Finset.Ico (i + 1) size, system.matrix i j * x j) / system.matrix i i))

/-- The columns before `columns` are those of an upper triangular matrix with pivots that are not 0. -/
structure Echelon (size columns : ℕ) : Prop where
  pivot : ∀ i < columns, system.matrix i i ≠ 0
  below : ∀ i < columns, ∀ j, i < j → j < size → system.matrix j i = 0

/-- The same equations with 0 on the right. -/
def homogeneous : System K := { system with right := fun _ => 0 }

section Exchange

variable {system} {size i j : ℕ} {x : ℕ → K}

theorem solves_exchange (iBound : i < size) (jBound : j < size) :
    (system.exchange i j).Solves size x ↔ system.Solves size x := by
  have stays : ∀ row < size, Equiv.swap i j row < size := fun row bound => by
    rcases eq_or_ne row i with rfl | notLeft
    · rwa [Equiv.swap_apply_left]
    rcases eq_or_ne row j with rfl | notRight
    · rwa [Equiv.swap_apply_right]
    rwa [Equiv.swap_apply_of_ne_of_ne notLeft notRight]
  constructor
  · intro solves row bound
    have found := solves (Equiv.swap i j row) (stays row bound)
    simpa [exchange,product] using found
  · exact fun solves row bound => solves (Equiv.swap i j row) (stays row bound)

theorem Echelon.exchange {columns : ℕ} (echelon : system.Echelon size columns) (iLater : columns ≤ i) (jLater : columns ≤ j)
    (iBound : i < size) (jBound : j < size) : (system.exchange i j).Echelon size columns := by
  have kept : ∀ row < columns, Equiv.swap i j row = row := fun row before =>
    Equiv.swap_apply_of_ne_of_ne (by omega) (by omega)
  refine ⟨fun row before => ?_,fun column before row after bound => ?_⟩
  · change system.matrix (Equiv.swap i j row) row ≠ 0
    rw [kept row before]
    exact echelon.pivot row before
  · change system.matrix (Equiv.swap i j row) column = 0
    rcases eq_or_ne row i with rfl | notLeft
    · rw [Equiv.swap_apply_left]
      exact echelon.below column before j (by omega) jBound
    rcases eq_or_ne row j with rfl | notRight
    · rw [Equiv.swap_apply_right]
      exact echelon.below column before i (by omega) iBound
    rw [Equiv.swap_apply_of_ne_of_ne notLeft notRight]
    exact echelon.below column before row after bound

theorem homogeneous_exchange : (system.exchange i j).homogeneous = system.homogeneous.exchange i j := rfl

end Exchange

section Eliminate

variable {system} {size i : ℕ} {x : ℕ → K}

private theorem product_eliminate (echelon : system.Echelon size i) (pivot : system.matrix i i ≠ 0) {row : ℕ}
    (after : i < row) (bound : row < size) : (system.eliminate size i).product size row x =
      system.product size row x + -system.matrix row i / system.matrix i i * system.product size i x := by
  rw [product,product,product,Finset.mul_sum,← Finset.sum_add_distrib]
  refine Finset.sum_congr rfl fun k member => ?_
  have inside := Finset.mem_range.mp member
  simp only [eliminate,if_pos (And.intro after bound)]
  rcases lt_trichotomy k i with before | rfl | behind
  · rw [if_neg before.ne,if_neg (by omega),echelon.below k before i before (by omega)]
    ring
  · rw [if_pos rfl]
    field_simp
    ring
  · rw [if_neg behind.ne',if_pos ⟨behind,inside⟩]
    ring

private theorem product_eliminate_of_le {row : ℕ} (before : row ≤ i) :
    (system.eliminate size i).product size row x = system.product size row x := by
  have same : (system.eliminate size i).matrix row = system.matrix row := funext fun k => if_neg (by omega)
  rw [product,same,product]

theorem solves_eliminate (echelon : system.Echelon size i) (pivot : system.matrix i i ≠ 0) (inside : i < size) :
    (system.eliminate size i).Solves size x ↔ system.Solves size x := by
  have right : ∀ row, i < row → row < size → (system.eliminate size i).right row =
      system.right row + -system.matrix row i / system.matrix i i * system.right i := fun row after bound =>
    if_pos ⟨after,bound⟩
  have kept : ∀ row ≤ i, (system.eliminate size i).right row = system.right row := fun row before => if_neg (by omega)
  constructor
  · intro solves
    have own : system.product size i x = system.right i := by
      rw [← product_eliminate_of_le le_rfl,solves i inside,kept i le_rfl]
    intro row bound
    rcases le_or_gt row i with before | after
    · rw [← product_eliminate_of_le before,solves row bound,kept row before]
    · have found := solves row bound
      rw [product_eliminate echelon pivot after bound,right row after bound,own] at found
      exact add_right_cancel found
  · intro solves row bound
    rcases le_or_gt row i with before | after
    · rw [product_eliminate_of_le before,solves row bound,kept row before]
    · rw [product_eliminate echelon pivot after bound,right row after bound,solves row bound,solves i inside]

theorem Echelon.eliminate (echelon : system.Echelon size i) (pivot : system.matrix i i ≠ 0) :
    (system.eliminate size i).Echelon size (i + 1) := by
  refine ⟨fun row before => ?_,fun column before row after bound => ?_⟩
  · have same : (system.eliminate size i).matrix row row = system.matrix row row := if_neg (by omega)
    rw [same]
    rcases Nat.lt_succ_iff_lt_or_eq.mp before with earlier | rfl
    exacts [echelon.pivot row earlier,pivot]
  · rcases Nat.lt_succ_iff_lt_or_eq.mp before with earlier | rfl
    · have zero := echelon.below column earlier row after bound
      simp only [System.eliminate]
      split_ifs
      · rfl
      · omega
      · exact zero
      · exact zero
    · exact (if_pos ⟨after,bound⟩).trans (if_pos rfl)

theorem homogeneous_eliminate : (system.eliminate size i).homogeneous = system.homogeneous.eliminate size i := by
  have right : (system.homogeneous.eliminate size i).right = fun _ => 0 := by
    funext row
    simp [System.eliminate,homogeneous]
  rw [homogeneous,← right]
  rfl

end Eliminate

section Substitute

variable {system} {size : ℕ}

private theorem substitute_spec (count : ℕ) (bound : count ≤ size) (pivots : ∀ i < count, system.matrix i i ≠ 0) :
    ∀ x : ℕ → K, (∀ k, count ≤ k → system.substitute size count x k = x k) ∧
      ∀ row < count, ∑ k ∈ Finset.Ico row size, system.matrix row k * system.substitute size count x k = x row := by
  induction count with
  | zero => exact fun x => ⟨fun _ _ => rfl,fun row before => absurd before (Nat.not_lt_zero row)⟩
  | succ i ih =>
    intro x
    obtain ⟨kept,solved⟩ := ih (by omega) (fun row before => pivots row (by omega)) (Function.update x i
      ((x i - ∑ j ∈ Finset.Ico (i + 1) size, system.matrix i j * x j) / system.matrix i i))
    have later : ∀ k, i + 1 ≤ k → system.substitute size (i + 1) x k = x k := fun k after => by
      rw [substitute,kept k (by omega),Function.update_of_ne (by omega)]
    refine ⟨later,fun row before => ?_⟩
    rcases Nat.lt_succ_iff_lt_or_eq.mp before with earlier | rfl
    · rw [substitute,solved row earlier,Function.update_of_ne (by omega)]
    · rw [Finset.sum_eq_sum_Ico_succ_bot (by omega),substitute,kept row le_rfl,Function.update_self]
      have rest : ∑ k ∈ Finset.Ico (row + 1) size, system.matrix row k * system.substitute size row
          (Function.update x row ((x row - ∑ j ∈ Finset.Ico (row + 1) size, system.matrix row j * x j) /
            system.matrix row row)) k = ∑ j ∈ Finset.Ico (row + 1) size, system.matrix row j * x j := by
        refine Finset.sum_congr rfl fun k member => ?_
        have after := (Finset.mem_Ico.mp member).1
        rw [kept k (by omega),Function.update_of_ne (by omega)]
      rw [rest,mul_div_cancel₀ _ (pivots row (Nat.lt_succ_self row)),sub_add_cancel]

/-- The back substitution solves the triangular system. -/
theorem solves_substitute (echelon : system.Echelon size size) : system.Solves size (system.substitute size size system.right) := by
  obtain ⟨-,solved⟩ := @substitute_spec K _ system size size le_rfl echelon.pivot system.right
  intro row bound
  have zero : ∑ k ∈ Finset.range row, system.matrix row k * system.substitute size size system.right k = 0 :=
    Finset.sum_eq_zero fun k member => by
      rw [echelon.below k (by have := Finset.mem_range.mp member; omega) row (Finset.mem_range.mp member) bound,zero_mul]
  rw [product,Finset.range_eq_Ico,← Finset.sum_Ico_consecutive _ (Nat.zero_le row) bound.le,← Finset.range_eq_Ico,zero,
    zero_add,solved row bound]

end Substitute

section Dependence

variable {system other : System K} {size columns : ℕ}

theorem dependent_congr (same : ∀ x, other.homogeneous.Solves size x ↔ system.homogeneous.Solves size x) :
    other.Dependent size columns ↔ system.Dependent size columns :=
  exists_congr fun x => and_congr_right fun _ => and_congr_right fun _ => same x

theorem Dependent.mono {more : ℕ} (dependent : system.Dependent size columns) (le : columns ≤ more) :
    system.Dependent size more := by
  obtain ⟨x,⟨k,before,nonzero⟩,zero,solves⟩ := dependent
  exact ⟨x,⟨k,by omega,nonzero⟩,fun k after => zero k (by omega),solves⟩

theorem Echelon.not_dependent (echelon : system.Echelon size columns) (le : columns ≤ size) :
    ¬ system.Dependent size columns := by
  rintro ⟨x,⟨k,before,nonzero⟩,zero,solves⟩
  have vanishes : ∀ count k, columns - count ≤ k → x k = 0 := by
    intro count
    induction count with
    | zero => exact fun k after => zero k (by omega)
    | succ count ih =>
      intro k after
      rcases le_or_gt columns k with outside | inside
      · exact zero k outside
      -- Row `k` is 0 before its pivot, and the vector is 0 behind it.
      have own : system.product size k x = system.matrix k k * x k := by
        rw [product,Finset.sum_eq_single_of_mem k (Finset.mem_range.mpr (by omega)) fun j member different => ?_]
        rcases different.lt_or_gt with earlier | later
        · rw [echelon.below j (by omega) k earlier (by omega),zero_mul]
        · rw [ih j (by omega),mul_zero]
      rw [solves k (by omega)] at own
      exact (mul_eq_zero.mp own.symm).resolve_left (echelon.pivot k inside)
  exact nonzero (vanishes columns k (by omega))

/-- Without an entry that can be a pivot, the column depends on those before it. -/
theorem Echelon.dependent_succ (echelon : system.Echelon size columns) (inside : columns < size)
    (column : ∀ row, columns ≤ row → row < size → system.matrix row columns = 0) :
    system.Dependent size (columns + 1) := by
  have square : (System.mk system.matrix fun row => -system.matrix row columns).Echelon columns columns :=
    ⟨echelon.pivot,fun i before j after bound => echelon.below i before j after (by omega)⟩
  have solved := solves_substitute square
  set y := (System.mk system.matrix fun row => -system.matrix row columns).substitute columns columns
    fun row => -system.matrix row columns
  refine ⟨fun k => if k < columns then y k else if k = columns then 1 else 0,⟨columns,Nat.lt_succ_self _,by simp⟩,
    fun k after => by simp [show ¬ k < columns by omega,show k ≠ columns by omega],fun row bound => ?_⟩
  have first : ∑ k ∈ Finset.range columns, system.matrix row k *
      (if k < columns then y k else if k = columns then 1 else 0) =
      ∑ k ∈ Finset.range columns, system.matrix row k * y k :=
    Finset.sum_congr rfl fun k member => by rw [if_pos (Finset.mem_range.mp member)]
  have rest : ∑ k ∈ Finset.Ico (columns + 1) size, system.matrix row k *
      (if k < columns then y k else if k = columns then 1 else 0) = 0 :=
    Finset.sum_eq_zero fun k member => by
      have after := (Finset.mem_Ico.mp member).1
      rw [if_neg (by omega),if_neg (by omega),mul_zero]
  rw [product,Finset.range_eq_Ico,← Finset.sum_Ico_consecutive _ (Nat.zero_le (columns + 1)) inside,rest,add_zero,
    ← Finset.range_eq_Ico,Finset.sum_range_succ,first]
  simp only [lt_irrefl,if_false,if_true,mul_one]
  rcases lt_or_ge row columns with before | after
  · have row_eq := solved row before
    rw [product] at row_eq
    exact (congrArg (· + system.matrix row columns) row_eq).trans (neg_add_cancel _)
  · rw [column row after bound,add_zero]
    refine Finset.sum_eq_zero fun k member => ?_
    have before := Finset.mem_range.mp member
    rw [echelon.below k before row (by omega) bound,zero_mul]

end Dependence

section Reduce

/-- The elimination of some columns from column `i` on, with a choice of the row that is exchanged with row `i`;
    none if a pivot is 0. -/
def reduce [DecidableEq K] (choose : System K → ℕ → ℕ) (size : ℕ) : ℕ → ℕ → System K → Option (System K)
  | 0, _, system => some system
  | count + 1, i, system =>
    let chosen := system.exchange i (choose system i)
    if chosen.matrix i i = 0 then none else reduce choose size count (i + 1) (chosen.eliminate size i)

/-- The chosen row is not above row `i`, and its entry is 0 only if all entries of the column from there on are. -/
def Chooses (choose : System K → ℕ → ℕ) (size : ℕ) : Prop :=
  ∀ (system : System K) (i : ℕ), i < size → i ≤ choose system i ∧ choose system i < size ∧
    (system.matrix (choose system i) i = 0 → ∀ row, i ≤ row → row < size → system.matrix row i = 0)

variable [DecidableEq K] {choose : System K → ℕ → ℕ} {size : ℕ}

/-- The elimination keeps the solutions of the system and of the homogeneous one, and fails in a column that
    depends on the ones before it. -/
theorem reduce_spec (chooses : Chooses choose size) (count : ℕ) : ∀ (system : System K) (i : ℕ), i + count ≤ size →
    system.Echelon size i →
    (∃ reduced, reduce choose size count i system = some reduced ∧ reduced.Echelon size (i + count) ∧
      (∀ x, reduced.Solves size x ↔ system.Solves size x) ∧
      ∀ x, reduced.homogeneous.Solves size x ↔ system.homogeneous.Solves size x) ∨
    (reduce choose size count i system = none ∧ system.Dependent size (i + count)) := by
  induction count with
  | zero => exact fun system i _ echelon => .inl ⟨system,rfl,echelon,fun _ => Iff.rfl,fun _ => Iff.rfl⟩
  | succ count ih =>
    intro system i bound echelon
    obtain ⟨later,inside,column⟩ := chooses system i (by omega)
    have exchanged := echelon.exchange le_rfl later (by omega) inside
    have homogeneous : ∀ x, (system.exchange i (choose system i)).homogeneous.Solves size x ↔
        system.homogeneous.Solves size x := fun x => by
      rw [homogeneous_exchange,solves_exchange (by omega) inside]
    have entry : (system.exchange i (choose system i)).matrix i i = system.matrix (choose system i) i :=
      congrArg (system.matrix · i) (Equiv.swap_apply_left i _)
    rw [reduce]
    by_cases pivot : (system.exchange i (choose system i)).matrix i i = 0
    · refine .inr ⟨if_pos pivot,?_⟩
      have zero := column (entry ▸ pivot)
      exact (echelon.dependent_succ (by omega) zero).mono (by omega)
    · have eliminated : ∀ x, ((system.exchange i (choose system i)).eliminate size i).homogeneous.Solves size x ↔
          system.homogeneous.Solves size x := fun x => by
        have zero : (system.exchange i (choose system i)).homogeneous.Echelon size i :=
          ⟨exchanged.pivot,exchanged.below⟩
        rw [homogeneous_eliminate]
        exact (solves_eliminate zero pivot (by omega)).trans (homogeneous x)
      simp only [if_neg pivot]
      have next : i + 1 + count = i + (count + 1) := by omega
      rcases ih ((system.exchange i (choose system i)).eliminate size i) (i + 1) (by omega)
        (exchanged.eliminate pivot) with ⟨reduced,found,upper,solves,kernel⟩ | ⟨fails,dependent⟩
      · refine .inl ⟨reduced,found,next ▸ upper,fun x => ?_,fun x => (kernel x).trans (eliminated x)⟩
        rw [solves x,solves_eliminate exchanged pivot (by omega),solves_exchange (by omega) inside]
      · exact .inr ⟨fails,next ▸ (dependent_congr eliminated).mp dependent⟩

end Reduce

end System

end Vexjine.Elimination
