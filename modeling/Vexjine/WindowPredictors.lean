import Vexjine.MeasurementBuffers
import Vexjine.MedianSort
import Vexjine.Scans

/-!
# Predictions from the last durations

The methods that predict the average, the median, the least or the greatest of the durations in the buffer.
Values are 64-bit, counts and sizes unsigned with 32 bits, and a size is read as a signed `int` where it is used.
-/

namespace Vexjine.WindowPredictors
open MeasurementBuffers

variable {capacity : Capacity}

/-- `int max = getCurrentSize()`. -/
def signed (size : UInt32) : ℤ := size.toInt32.toInt

def LONG_MAX : ℤ := 2 ^ 63 - 1

/-- `buffer[i]`, for an index of the buffer. -/
def element (buffer : capacity.Position → Int64) (i : ℕ) : Int64 := buffer (capacity.at (UInt32.ofNat i))

def progressIndex (capacity : Capacity) (index : UInt32) : UInt32 := index % capacity.circular_buffersize + 1

namespace AverageCyclicBuffer

def getAverage (buffer : capacity.Position → Int64) (max : ℤ) : Int64 :=
  (List.range max.toNat).foldl (fun sum i => sum + element buffer i) 0 / Int64.ofInt max

def getValue : Values capacity := fun buffer size index =>
  (getAverage buffer (signed size),progressIndex capacity index)

end AverageCyclicBuffer

namespace MedianCyclicBuffer

/-- The memory around `tempSortingBuffer`, with a copy of the buffer in it. -/
def tempSortingBuffer (outside : ℤ → Int64) (buffer : capacity.Position → Int64) (k : ℤ) : ℤ :=
  if 0 ≤ k ∧ k < capacity.circular_buffersize.toNat then (element buffer k.toNat).toInt else (outside k).toInt

def getValue (outside : ℤ → Int64) : Values capacity := fun buffer size index =>
  let max := signed size
  if max = 0 then (0,index)
  else
    let sorted := MedianSort.sorted (tempSortingBuffer outside buffer) max
    let tempValue := if max.tmod 2 = 0
      then (Int64.ofInt (sorted (max.tdiv 2)) + Int64.ofInt (sorted (max.tdiv 2 - 1))) / 2
      else Int64.ofInt (sorted ((max - 1).tdiv 2))
    (tempValue,progressIndex capacity index)

end MedianCyclicBuffer

namespace MinimumCyclicBuffer

def getValue : Values capacity := fun buffer size index =>
  let max := signed size
  if max = 0 then (0,index)
  else (Int64.ofInt (Scans.least (fun _ => true) (fun i => (element buffer i).toInt) LONG_MAX (List.range max.toNat)),
    progressIndex capacity index)

end MinimumCyclicBuffer

namespace MaximumCyclicBuffer

def getValue : Values capacity := fun buffer size index =>
  let max := signed size
  if max = 0 then (0,index)
  else (Int64.ofInt (Scans.greatest (fun i => (element buffer i).toInt) 0 (List.range max.toNat)),
    progressIndex capacity index)

end MaximumCyclicBuffer

/-- The methods that predict a statistic. -/
inductive Method where
  | average
  | median
  | minimum
  | maximum
  deriving DecidableEq

def Method.getValue (outside : ℤ → Int64) : Method → Values capacity
  | .average => AverageCyclicBuffer.getValue
  | .median => MedianCyclicBuffer.getValue outside
  | .minimum => MinimumCyclicBuffer.getValue
  | .maximum => MaximumCyclicBuffer.getValue

/-! ## What is predicted -/

def medianOf (values : List ℤ) : ℤ :=
  let sorted := values.insertionSort (· ≤ ·)
  if values.length % 2 = 0 then (sorted.getD (values.length / 2) 0 + sorted.getD (values.length / 2 - 1) 0) / 2
  else sorted.getD ((values.length - 1) / 2) 0

/-- The integer statistics of some values. -/
def Method.statistic : Method → List ℤ → ℤ
  | .average, values => values.sum / values.length
  | .median, values => medianOf values
  | .minimum, values => values.min?.getD 0
  | .maximum, values => values.max?.getD 0

/-- The last durations, as many as the buffer holds. -/
def window (capacity : Capacity) (durations : List Int64) : List ℤ :=
  (durations.drop (durations.length - capacity.circular_buffersize.toNat)).map Int64.toInt

/-- Behind the durations, and whatever was predicted between them, the method predicts the statistic of the last
    ones, and 0 while there are no more than fit into the buffer. -/
def Predicts (capacity : Capacity) (method : Method) (durations : List Int64) : Prop :=
  ∀ (outside : ℤ → Int64) (index : UInt32),
    (({ CyclicBufferBased.recorded durations with index } : CyclicBufferBased capacity).getNext
      (method.getValue outside)).1.toInt =
      if capacity.circular_buffersize.toNat < durations.length then method.statistic (window capacity durations) else 0

/-! ## The buffer -/

theorem size_recorded (durations : List Int64) :
    (CyclicBufferBased.recorded durations : CyclicBufferBased capacity).size = UInt32.ofNat durations.length := by
  induction durations using List.reverseRecOn with
  | nil => rfl
  | append_singleton durations last ih =>
    rw [CyclicBufferBased.recorded,List.foldl_append,List.foldl_cons,List.foldl_nil,← CyclicBufferBased.recorded,
      CyclicBufferBased.addPredictionInfo,CyclicBufferBased.store,ih,List.length_append]
    exact (UInt32.ofNat_add durations.length 1).symm

theorem at_ofNat {count : ℕ} (short : count < 2 ^ 32) :
    (capacity.at (UInt32.ofNat count)).val = count % capacity.circular_buffersize.toNat :=
  congrArg (· % capacity.circular_buffersize.toNat) (UInt32.toNat_ofNat_of_lt' short)

/-- What a method with a count of 0 stores is in the buffer until it is overwritten. -/
private theorem stored_element {method : CyclicBufferBased capacity} (empty : method.size = 0) (durations : List Int64) :
    durations.length < 2 ^ 32 → (durations.foldl CyclicBufferBased.addPredictionInfo method).size =
        UInt32.ofNat durations.length ∧
      ∀ j (inside : j < durations.length), durations.length ≤ j + capacity.circular_buffersize.toNat →
        (durations.foldl CyclicBufferBased.addPredictionInfo method).buffer (capacity.at (UInt32.ofNat j)) =
          durations[j] := by
  induction durations using List.reverseRecOn with
  | nil => exact fun _ => ⟨empty,fun j inside => absurd inside (Nat.not_lt_zero j)⟩
  | append_singleton durations last ih =>
    intro short
    rw [List.length_append,List.length_singleton] at short
    obtain ⟨size,stored⟩ := ih (by omega)
    have next : (durations ++ [last]).foldl CyclicBufferBased.addPredictionInfo method =
        (durations.foldl CyclicBufferBased.addPredictionInfo method).store last := by
      rw [List.foldl_append]
      rfl
    refine ⟨?_,fun j inside recent => ?_⟩
    · rw [next,CyclicBufferBased.store,size,List.length_append]
      exact (UInt32.ofNat_add durations.length 1).symm
    · have update : ((durations ++ [last]).foldl CyclicBufferBased.addPredictionInfo method).buffer =
          Function.update (durations.foldl CyclicBufferBased.addPredictionInfo method).buffer
            (capacity.at (UInt32.ofNat durations.length)) last := by
        rw [next,CyclicBufferBased.store,size]
      rw [List.length_append,List.length_singleton] at inside recent
      rw [update]
      rcases Nat.lt_succ_iff_lt_or_eq.mp inside with before | rfl
      · have apart : capacity.at (UInt32.ofNat j) ≠ capacity.at (UInt32.ofNat durations.length) := fun same => by
          have congruent := congrArg Fin.val same
          rw [at_ofNat (by omega),at_ofNat (by omega)] at congruent
          have divides := (Nat.modEq_iff_dvd' before.le).mp congruent
          exact absurd (Nat.le_of_dvd (by omega) divides) (by omega)
        rw [Function.update_of_ne apart,stored j before (by omega),List.getElem_append_left]
      · rw [Function.update_self,List.getElem_append_right le_rfl]
        simp

/-- More durations than fit into the buffer since the count was last 0: the buffer holds the last ones, each where
    it was written. -/
theorem element_recorded {durations : List Int64}
    (filled : capacity.circular_buffersize.toNat ≤ durations.length % 2 ^ 32) (t : ℕ)
    (inside : t < capacity.circular_buffersize.toNat) :
    ((CyclicBufferBased.recorded durations : CyclicBufferBased capacity).buffer
      (capacity.at (UInt32.ofNat (durations.length % 2 ^ 32 - capacity.circular_buffersize.toNat + t)))).toInt =
      (window capacity durations)[t]? := by
  have below := Nat.mod_lt durations.length (show 0 < 2 ^ 32 by decide)
  have le := Nat.mod_le durations.length (2 ^ 32)
  have parts := List.take_append_drop (durations.length - durations.length % 2 ^ 32) durations
  set before := durations.take (durations.length - durations.length % 2 ^ 32) with before_eq
  set after := durations.drop (durations.length - durations.length % 2 ^ 32) with after_eq
  have count : after.length = durations.length % 2 ^ 32 := by rw [after_eq,List.length_drop]; omega
  have empty : (CyclicBufferBased.recorded before : CyclicBufferBased capacity).size = 0 := by
    rw [size_recorded,before_eq,List.length_take,min_eq_left (Nat.sub_le _ _),← UInt32.toNat_inj,UInt32.toNat_ofNat']
    exact Nat.mod_eq_zero_of_dvd (Nat.dvd_sub_mod durations.length)
  have recorded : (CyclicBufferBased.recorded durations : CyclicBufferBased capacity) =
      after.foldl CyclicBufferBased.addPredictionInfo (CyclicBufferBased.recorded before) := by
    conv_lhs => rw [← parts]
    rw [CyclicBufferBased.recorded,List.foldl_append]
    rfl
  obtain ⟨-,stored⟩ := stored_element empty after (by omega)
  have last : durations.length % 2 ^ 32 - capacity.circular_buffersize.toNat + t < after.length := by omega
  rw [recorded,stored _ last (by omega),window,List.getElem?_map,List.getElem?_drop]
  have place : durations.length - capacity.circular_buffersize.toNat + t =
      durations.length - durations.length % 2 ^ 32 + (durations.length % 2 ^ 32 - capacity.circular_buffersize.toNat + t) := by
    omega
  rw [place,← List.getElem?_drop,← after_eq,List.getElem?_eq_getElem last]
  rfl

/-- The window is the buffer, rotated. -/
theorem window_perm {durations : List Int64}
    (filled : capacity.circular_buffersize.toNat ≤ durations.length % 2 ^ 32) :
    (List.ofFn fun position => ((CyclicBufferBased.recorded durations : CyclicBufferBased capacity).buffer
      position).toInt).Perm (window capacity durations) := by
  have below := Nat.mod_lt durations.length (show 0 < 2 ^ 32 by decide)
  have le := Nat.mod_le durations.length (2 ^ 32)
  have nonzero : NeZero capacity.circular_buffersize.toNat := ⟨capacity.positive.ne'⟩
  have count : (window capacity durations).length = capacity.circular_buffersize.toNat := by
    rw [window,List.length_map,List.length_drop]
    omega
  have rotated : window capacity durations = List.ofFn ((fun position =>
      ((CyclicBufferBased.recorded durations : CyclicBufferBased capacity).buffer position).toInt) ∘
        Equiv.addRight (Fin.ofNat capacity.circular_buffersize.toNat
          (durations.length % 2 ^ 32 - capacity.circular_buffersize.toNat))) := by
    refine List.ext_getElem (by rw [count,List.length_ofFn]) fun t inside _ => ?_
    have position : capacity.at (UInt32.ofNat (durations.length % 2 ^ 32 - capacity.circular_buffersize.toNat + t)) =
        (⟨t,count ▸ inside⟩ : capacity.Position) + Fin.ofNat capacity.circular_buffersize.toNat
          (durations.length % 2 ^ 32 - capacity.circular_buffersize.toNat) := by
      apply Fin.ext
      rw [at_ofNat (by omega),Fin.val_add,Fin.val_ofNat,Nat.add_mod_mod,add_comm]
    have found := element_recorded filled t (count ▸ inside)
    rw [List.getElem?_eq_getElem inside,Option.some_inj,position] at found
    rw [List.getElem_ofFn,← found]
    rfl
  rw [rotated]
  exact (Equiv.Perm.ofFn_comp_perm _ _).symm

private theorem getNext_value (method : Method) (durations : List Int64) (outside : ℤ → Int64) (index : UInt32) :
    (({ CyclicBufferBased.recorded durations with index } : CyclicBufferBased capacity).getNext
      (method.getValue outside)).1 =
      if capacity.circular_buffersize.toNat < durations.length % 2 ^ 32
      then (method.getValue outside (CyclicBufferBased.recorded durations : CyclicBufferBased capacity).buffer
        capacity.circular_buffersize index).1 else 0 := by
  have size : (CyclicBufferBased.recorded durations : CyclicBufferBased capacity).size.toNat =
      durations.length % 2 ^ 32 := by
    rw [size_recorded,UInt32.toNat_ofNat']
  rw [CyclicBufferBased.getNext]
  simp only [UInt32.lt_iff_toNat_lt,size]
  split_ifs with filled
  · rw [CyclicBufferBased.getCurrentSize,if_pos (by rwa [UInt32.lt_iff_toNat_lt,size])]
  · rfl

/-! ## The values -/

private theorem signed_eq (size : UInt32) : signed size = (size.toNat : ℤ).bmod (2 ^ 32) := by
  rw [signed]
  conv_lhs => rw [← @UInt32.ofNat_toNat size]
  rw [UInt32.toInt32_ofNat',Int32.toInt_ofNat']
  rfl

theorem signed_of_small {size : UInt32} (small : size.toNat < 2 ^ 31) : signed size = size.toNat := by
  rw [signed_eq,Int.bmod_def]
  split_ifs <;> omega

theorem signed_neg {size : UInt32} (large : 2 ^ 31 ≤ size.toNat) : signed size < 0 := by
  have bound := size.toNat_lt
  rw [signed_eq,Int.bmod_def]
  split_ifs <;> omega

private theorem toInt_add {a b : Int64} (aNonneg : 0 ≤ a.toInt) (bNonneg : 0 ≤ b.toInt) (small : a.toInt + b.toInt < 2 ^ 63) :
    (a + b).toInt = a.toInt + b.toInt := by
  rw [Int64.toInt_add]
  exact Int.bmod_eq_of_le (by omega) (by omega)

private theorem toInt_div {a b : Int64} (aNonneg : 0 ≤ a.toInt) (bPositive : 0 < b.toInt) :
    (a / b).toInt = a.toInt / b.toInt := by
  have different : b ≠ -1 := by
    rintro rfl
    exact absurd bPositive (by decide)
  rw [Int64.toInt_div_of_ne_right a b different,Int.tdiv_eq_ediv_of_nonneg aNonneg]

private theorem toInt_ofInt {value : ℤ} (nonneg : 0 ≤ value) (small : value < 2 ^ 63) : (Int64.ofInt value).toInt = value :=
  Int64.toInt_ofInt_of_le (by omega) small

private theorem toInt_sum (values : List Int64) (nonneg : ∀ value ∈ values, 0 ≤ value.toInt)
    (small : (values.map Int64.toInt).sum < 2 ^ 63) :
    (values.foldl (· + ·) 0).toInt = (values.map Int64.toInt).sum := by
  induction values using List.reverseRecOn with
  | nil => rfl
  | append_singleton values last ih =>
    have before : ∀ value ∈ values, 0 ≤ value.toInt := fun value member => nonneg value (by simp [member])
    have lastNonneg : 0 ≤ last.toInt := nonneg last (by simp)
    have sumNonneg : 0 ≤ (values.map Int64.toInt).sum := List.sum_nonneg (by simpa using before)
    rw [List.map_append,List.sum_append,List.map_singleton,List.sum_singleton] at small ⊢
    have sum := ih before (by omega)
    rw [List.foldl_append,List.foldl_cons,List.foldl_nil,toInt_add (by omega) lastNonneg (by omega),sum]

/-- Two neighbours are at most the sum. -/
private theorem neighbours_le_sum : ∀ {values : List ℤ}, (∀ value ∈ values, 0 ≤ value) → ∀ i,
    values.getD (i + 1) 0 + values.getD i 0 ≤ values.sum
  | [], _, _ => by simp
  | [value], nonneg, 0 => by simp
  | value :: next :: rest, nonneg, 0 => by
    have tail : 0 ≤ rest.sum := List.sum_nonneg fun other member => nonneg other (by simp [member])
    simp only [List.getD_cons_succ,List.getD_cons_zero,List.sum_cons]
    omega
  | value :: rest, nonneg, i + 1 => by
    have head : 0 ≤ value := nonneg value (by simp)
    have tail := neighbours_le_sum (fun other member => nonneg other (List.mem_cons_of_mem value member)) i
    simp only [List.getD_cons_succ,List.sum_cons]
    omega

private theorem element_of_lt (buffer : capacity.Position → Int64) {i : ℕ}
    (inside : i < capacity.circular_buffersize.toNat) : element buffer i = buffer ⟨i,inside⟩ := by
  have bound := capacity.circular_buffersize.toNat_lt
  refine congrArg buffer (Fin.ext ?_)
  rw [at_ofNat (by omega),Nat.mod_eq_of_lt inside]

private theorem map_element (buffer : capacity.Position → Int64) :
    (List.range capacity.circular_buffersize.toNat).map (element buffer) = List.ofFn buffer := by
  refine List.ext_getElem (by simp) fun i inside _ => ?_
  rw [List.getElem_map,List.getElem_range,List.getElem_ofFn,element_of_lt buffer (by simpa using inside)]

section Values

variable {buffer : capacity.Position → Int64} {values : List ℤ}

/-- What the proofs use of the durations in the buffer. -/
private structure Holds (buffer : capacity.Position → Int64) (values : List ℤ) : Prop where
  perm : (List.ofFn fun position => (buffer position).toInt).Perm values
  nonneg : ∀ value ∈ values, 0 ≤ value
  small : values.sum < 2 ^ 63

private theorem Holds.length (holds : Holds buffer values) : values.length = capacity.circular_buffersize.toNat := by
  rw [← holds.perm.length_eq,List.length_ofFn]

private theorem Holds.mem_iff (holds : Holds buffer values) (value : ℤ) :
    value ∈ values ↔ ∃ i < capacity.circular_buffersize.toNat, (element buffer i).toInt = value := by
  rw [← holds.perm.mem_iff,List.mem_ofFn]
  constructor
  · rintro ⟨position,same⟩
    exact ⟨position.val,position.isLt,by rw [element_of_lt buffer position.isLt]; exact same⟩
  · rintro ⟨i,inside,same⟩
    exact ⟨⟨i,inside⟩,by rw [← element_of_lt buffer inside]; exact same⟩

private theorem Holds.lt (holds : Holds buffer values) {value : ℤ} (member : value ∈ values) : value < 2 ^ 63 :=
  (List.single_le_sum holds.nonneg value member).trans_lt holds.small

private theorem getAverage_eq (small : capacity.circular_buffersize.toNat < 2 ^ 31) (holds : Holds buffer values) :
    (AverageCyclicBuffer.getAverage buffer (signed capacity.circular_buffersize)).toInt =
      Method.average.statistic values := by
  have positive := capacity.positive
  have total : ((List.ofFn buffer).map Int64.toInt).sum = values.sum := by
    rw [List.map_ofFn]
    exact holds.perm.sum_eq
  have nonneg : ∀ value ∈ List.ofFn buffer, 0 ≤ value.toInt := fun value member => by
    refine holds.nonneg _ (holds.perm.mem_iff.mp ?_)
    rw [List.mem_ofFn] at member ⊢
    obtain ⟨position,rfl⟩ := member
    exact ⟨position,rfl⟩
  have sum := toInt_sum (List.ofFn buffer) nonneg (total ▸ holds.small)
  have sumNonneg : 0 ≤ values.sum := List.sum_nonneg holds.nonneg
  have size : (Int64.ofInt (signed capacity.circular_buffersize)).toInt = values.length := by
    rw [signed_of_small small,toInt_ofInt (by omega) (by omega),holds.length]
  have added : (List.range (signed capacity.circular_buffersize).toNat).foldl (fun sum i => sum + element buffer i) 0 =
      (List.ofFn buffer).foldl (· + ·) 0 := by
    rw [signed_of_small small,Int.toNat_natCast,← map_element,List.foldl_map]
  rw [AverageCyclicBuffer.getAverage,added,toInt_div (by omega) (by rw [size,holds.length]; omega),sum,total,size]
  rfl

private theorem least_eq (holds : Holds buffer values) :
    Scans.least (fun _ => true) (fun i => (element buffer i).toInt) LONG_MAX
      (List.range capacity.circular_buffersize.toNat) = Method.minimum.statistic values := by
  have bounds := (Scans.le_least_iff (fun _ => true) (fun i => (element buffer i).toInt) LONG_MAX _
    (List.range capacity.circular_buffersize.toNat)).mp le_rfl
  have attained := Scans.least_attained (fun _ => true) (fun i => (element buffer i).toInt) LONG_MAX
    (List.range capacity.circular_buffersize.toNat)
  generalize Scans.least (fun _ => true) (fun i => (element buffer i).toInt) LONG_MAX
    (List.range capacity.circular_buffersize.toNat) = best at *
  have inside : best ∈ values := by
    refine (holds.mem_iff best).mpr ?_
    rcases attained with ceiling | ⟨i,member,-,same⟩
    · -- Every value is LONG_MAX then, the first one too.
      have first : (element buffer 0).toInt ∈ values := (holds.mem_iff _).mpr ⟨0,capacity.positive,rfl⟩
      have high := bounds.2 0 (List.mem_range.mpr capacity.positive) rfl
      have low := holds.lt first
      have known : LONG_MAX = 2 ^ 63 - 1 := rfl
      exact ⟨0,capacity.positive,by omega⟩
    · exact ⟨i,List.mem_range.mp member,same⟩
  have least : values.min? = some best := by
    refine List.min?_eq_some_iff.mpr ⟨inside,fun value member => ?_⟩
    obtain ⟨i,before,rfl⟩ := (holds.mem_iff value).mp member
    exact bounds.2 i (List.mem_range.mpr before) rfl
  rw [Method.statistic,least,Option.getD_some]

private theorem greatest_eq (holds : Holds buffer values) :
    Scans.greatest (fun i => (element buffer i).toInt) 0
      (List.range capacity.circular_buffersize.toNat) = Method.maximum.statistic values := by
  have bounds := (Scans.greatest_le_iff (fun i => (element buffer i).toInt) 0 _
    (List.range capacity.circular_buffersize.toNat)).mp le_rfl
  have attained := Scans.greatest_attained (fun i => (element buffer i).toInt) 0
    (List.range capacity.circular_buffersize.toNat)
  generalize Scans.greatest (fun i => (element buffer i).toInt) 0
    (List.range capacity.circular_buffersize.toNat) = best at *
  have inside : best ∈ values := by
    refine (holds.mem_iff best).mpr ?_
    rcases attained with start | ⟨i,member,same⟩
    · -- Every value is 0 then, the first one too.
      have first : (element buffer 0).toInt ∈ values := (holds.mem_iff _).mpr ⟨0,capacity.positive,rfl⟩
      have low := holds.nonneg _ first
      have high := bounds.2 0 (List.mem_range.mpr capacity.positive)
      exact ⟨0,capacity.positive,by omega⟩
    · exact ⟨i,List.mem_range.mp member,same⟩
  have greatest : values.max? = some best := by
    refine List.max?_eq_some_iff.mpr ⟨inside,fun value member => ?_⟩
    obtain ⟨i,before,rfl⟩ := (holds.mem_iff value).mp member
    exact bounds.2 i (List.mem_range.mpr before)
  rw [Method.statistic,greatest,Option.getD_some]

/-- The sorted copy of the buffer is the sorted window. -/
private theorem sorted_getD (holds : Holds buffer values) (outside : ℤ → Int64) {k : ℕ}
    (inside : k < capacity.circular_buffersize.toNat) :
    MedianSort.sorted (MedianCyclicBuffer.tempSortingBuffer outside buffer) capacity.circular_buffersize.toNat k =
      (values.insertionSort (· ≤ ·)).getD k 0 := by
  obtain ⟨moved,ordered⟩ := MedianSort.sorted_spec (MedianCyclicBuffer.tempSortingBuffer outside buffer)
    capacity.circular_buffersize.toNat
  generalize MedianSort.sorted (MedianCyclicBuffer.tempSortingBuffer outside buffer)
    capacity.circular_buffersize.toNat = after at *
  have copied : Rearrangements.values (MedianCyclicBuffer.tempSortingBuffer outside buffer) 0
      capacity.circular_buffersize.toNat = List.ofFn fun position => (buffer position).toInt := by
    refine List.ext_getElem (by simp [Rearrangements.values]) fun i before _ => ?_
    have inside : i < capacity.circular_buffersize.toNat := by simpa [Rearrangements.values] using before
    simp [Rearrangements.values,MedianCyclicBuffer.tempSortingBuffer,inside,element_of_lt buffer inside]
  have same : (values.insertionSort (· ≤ ·)) = Rearrangements.values after 0 capacity.circular_buffersize.toNat := by
    refine List.Perm.eq_of_pairwise (fun a b _ _ => le_antisymm) ?_ ordered.pairwise_values ?_
    · exact List.pairwise_insertionSort (· ≤ ·) values
    · exact (List.perm_insertionSort (· ≤ ·) values).trans ((moved.values_perm.trans (copied ▸ .refl _)).trans holds.perm).symm
  simp [same,Rearrangements.values,inside]

private theorem getMedian_eq (outside : ℤ → Int64) (index : UInt32)
    (small : capacity.circular_buffersize.toNat < 2 ^ 31) (holds : Holds buffer values) :
    (MedianCyclicBuffer.getValue outside buffer capacity.circular_buffersize index).1.toInt =
      Method.median.statistic values := by
  have positive := capacity.positive
  have member : ∀ value ∈ (values.insertionSort (· ≤ ·)), value ∈ values := fun value inside =>
    (List.perm_insertionSort (· ≤ ·) values).mem_iff.mp inside
  have nonneg : ∀ value ∈ (values.insertionSort (· ≤ ·)), 0 ≤ value := fun value inside => holds.nonneg value (member value inside)
  have sum : (values.insertionSort (· ≤ ·)).sum = values.sum := (List.perm_insertionSort (· ≤ ·) values).sum_eq
  have getD_bounds : ∀ k, 0 ≤ (values.insertionSort (· ≤ ·)).getD k 0 ∧ (values.insertionSort (· ≤ ·)).getD k 0 < 2 ^ 63 := fun k => by
    rcases lt_or_ge k (values.insertionSort (· ≤ ·)).length with inside | beyond
    · have found : (values.insertionSort (· ≤ ·)).getD k 0 ∈ (values.insertionSort (· ≤ ·)) := by
        rw [List.getD_eq_getElem?_getD,List.getElem?_eq_getElem inside]
        exact List.getElem_mem inside
      exact ⟨nonneg _ found,holds.lt (member _ found)⟩
    · rw [List.getD_eq_getElem?_getD,List.getElem?_eq_none beyond]
      decide
  have nonzero : (capacity.circular_buffersize.toNat : ℤ) ≠ 0 := by omega
  rw [MedianCyclicBuffer.getValue,signed_of_small small]
  simp only [nonzero,if_false,Method.statistic,medianOf,holds.length]
  rw [Int.tmod_eq_emod_of_nonneg (by omega),Int.tdiv_eq_ediv_of_nonneg (by omega),
    Int.tdiv_eq_ediv_of_nonneg (by omega)]
  by_cases even : capacity.circular_buffersize.toNat % 2 = 0
  · have parity : (capacity.circular_buffersize.toNat : ℤ) % 2 = 0 := by omega
    have upper : (capacity.circular_buffersize.toNat : ℤ) / 2 = ((capacity.circular_buffersize.toNat / 2 : ℕ) : ℤ) := rfl
    have lower : ((capacity.circular_buffersize.toNat / 2 : ℕ) : ℤ) - 1 =
        ((capacity.circular_buffersize.toNat / 2 - 1 : ℕ) : ℤ) := by omega
    have neighbours := neighbours_le_sum nonneg (capacity.circular_buffersize.toNat / 2 - 1)
    have next : capacity.circular_buffersize.toNat / 2 - 1 + 1 = capacity.circular_buffersize.toNat / 2 := by omega
    rw [next,sum] at neighbours
    obtain ⟨highNonneg,highLt⟩ := getD_bounds (capacity.circular_buffersize.toNat / 2)
    obtain ⟨lowNonneg,lowLt⟩ := getD_bounds (capacity.circular_buffersize.toNat / 2 - 1)
    have small := holds.small
    have high := toInt_ofInt highNonneg highLt
    have low := toInt_ofInt lowNonneg lowLt
    rw [if_pos parity,if_pos even,upper,lower,sorted_getD holds outside (by omega),sorted_getD holds outside (by omega),
      toInt_div (by rw [toInt_add] <;> omega) (by decide),toInt_add (by omega) (by omega) (by omega),high,low]
    rfl
  · have parity : ¬ (capacity.circular_buffersize.toNat : ℤ) % 2 = 0 := by omega
    have half : ((capacity.circular_buffersize.toNat : ℤ) - 1) / 2 =
        (((capacity.circular_buffersize.toNat - 1) / 2 : ℕ) : ℤ) := by omega
    obtain ⟨midNonneg,midLt⟩ := getD_bounds ((capacity.circular_buffersize.toNat - 1) / 2)
    rw [if_neg parity,if_neg even,half,sorted_getD holds outside (by omega),toInt_ofInt midNonneg midLt]

/-- A size from 2 ^ 31 on is negative as an `int`, and the median is taken from in front of the buffer. -/
private theorem getMedian_outside (buffer : capacity.Position → Int64) (index : UInt32) (value : Int64)
    (large : 2 ^ 31 ≤ capacity.circular_buffersize.toNat) (small : 0 ≤ value.toInt ∧ value.toInt < 2 ^ 62) :
    (MedianCyclicBuffer.getValue (fun _ => value) buffer capacity.circular_buffersize index).1.toInt = value.toInt := by
  have negative := signed_neg large
  have untouched : ∀ k : ℤ, k < 0 → MedianSort.sorted (MedianCyclicBuffer.tempSortingBuffer (fun _ => value) buffer)
      (signed capacity.circular_buffersize) k = value.toInt := fun k before => by
    rw [(MedianSort.sorted_spec _ _).1.outside (by omega)]
    exact if_neg (by omega)
  obtain ⟨size,size_eq⟩ : ∃ size : ℤ, signed capacity.circular_buffersize = -size := ⟨_,(neg_neg _).symm⟩
  rw [size_eq] at negative untouched
  have nonzero : -size ≠ 0 := by omega
  rw [MedianCyclicBuffer.getValue,size_eq]
  simp only [nonzero,if_false]
  rw [← neg_add',Int.neg_tmod,Int.neg_tdiv,Int.neg_tdiv,Int.tmod_eq_emod_of_nonneg (by omega),
    Int.tdiv_eq_ediv_of_nonneg (by omega),Int.tdiv_eq_ediv_of_nonneg (by omega)]
  split_ifs with even
  · have double : (value + value).toInt = value.toInt + value.toInt := toInt_add small.1 small.1 (by omega)
    rw [untouched _ (by omega),untouched _ (by omega),Int64.ofInt_toInt,toInt_div (by omega) (by decide),double]
    change (value.toInt + value.toInt) / 2 = value.toInt
    omega
  · rw [untouched _ (by omega),Int64.ofInt_toInt]

end Values

/-! ## The predictions -/

section Predictions

variable {durations : List Int64}

private theorem holds_window (nonneg : ∀ duration ∈ durations, 0 ≤ duration.toInt)
    (small : (window capacity durations).sum < 2 ^ 63)
    (filled : capacity.circular_buffersize.toNat ≤ durations.length % 2 ^ 32) :
    Holds (CyclicBufferBased.recorded durations : CyclicBufferBased capacity).buffer (window capacity durations) := by
  refine ⟨window_perm filled,fun value member => ?_,small⟩
  obtain ⟨duration,inside,rfl⟩ := List.mem_map.mp member
  exact nonneg duration (List.mem_of_mem_drop inside)

private theorem statistic_of_filled (method : Method) (outside : ℤ → Int64) (index : UInt32)
    {buffer : capacity.Position → Int64} {values : List ℤ}
    (small : capacity.circular_buffersize.toNat < 2 ^ 31) (holds : Holds buffer values) :
    (method.getValue outside buffer capacity.circular_buffersize index).1.toInt = method.statistic values := by
  have positive := capacity.positive
  have size := signed_of_small small
  have nonzero : (capacity.circular_buffersize.toNat : ℤ) ≠ 0 := by omega
  cases method with
  | average => exact getAverage_eq small holds
  | median => exact getMedian_eq outside index small holds
  | minimum =>
    have least := least_eq holds
    have inside := Scans.least_le_ceiling (fun _ => true) (fun i => (element buffer i).toInt) LONG_MAX
      (List.range capacity.circular_buffersize.toNat)
    have nonneg := (Scans.le_least_iff (fun _ => true) (fun i => (element buffer i).toInt) LONG_MAX 0
      (List.range capacity.circular_buffersize.toNat)).mpr ⟨by decide,fun i member _ =>
        holds.nonneg _ ((holds.mem_iff _).mpr ⟨i,List.mem_range.mp member,rfl⟩)⟩
    have ceiling : LONG_MAX = 2 ^ 63 - 1 := rfl
    simp only [Method.getValue,MinimumCyclicBuffer.getValue,size,if_neg nonzero,Int.toNat_natCast]
    rw [toInt_ofInt nonneg (by omega),least]
  | maximum =>
    have greatest := greatest_eq holds
    have bounds := (Scans.greatest_le_iff (fun i => (element buffer i).toInt) 0 _
      (List.range capacity.circular_buffersize.toNat)).mp le_rfl
    have inside := (Scans.greatest_le_iff (fun i => (element buffer i).toInt) 0 (2 ^ 63 - 1)
      (List.range capacity.circular_buffersize.toNat)).mpr ⟨by decide,fun i member =>
        Int.le_sub_one_of_lt (holds.lt ((holds.mem_iff _).mpr ⟨i,List.mem_range.mp member,rfl⟩))⟩
    simp only [Method.getValue,MaximumCyclicBuffer.getValue,size,if_neg nonzero,Int.toNat_natCast]
    rw [toInt_ofInt bounds.1 (by omega),greatest]

/-- A size from 2 ^ 31 on. -/
private theorem statistic_of_large_iff (method : Method) {buffer : capacity.Position → Int64} {values : List ℤ}
    (large : 2 ^ 31 ≤ capacity.circular_buffersize.toNat) (holds : Holds buffer values) :
    (∀ (outside : ℤ → Int64) (index : UInt32),
      (method.getValue outside buffer capacity.circular_buffersize index).1.toInt = method.statistic values) ↔
    method.statistic values = 0 ∧ (method = .average ∨ method = .maximum) := by
  have negative := signed_neg large
  have nonzero : signed capacity.circular_buffersize ≠ 0 := by omega
  have none : (signed capacity.circular_buffersize).toNat = 0 := by omega
  cases method with
  | average =>
    simp [Method.getValue,AverageCyclicBuffer.getValue,AverageCyclicBuffer.getAverage,none,eq_comm]
  | median =>
    simp only [reduceCtorEq,or_self,and_false,iff_false]
    intro same
    have first := getMedian_outside buffer 0 0 large (by decide)
    have second := getMedian_outside buffer 0 1 large (by decide)
    rw [show (MedianCyclicBuffer.getValue _ buffer _ 0).1.toInt = _ from same (fun _ => 0) 0] at first
    rw [show (MedianCyclicBuffer.getValue _ buffer _ 0).1.toInt = _ from same (fun _ => 1) 0,first] at second
    exact absurd second (by decide)
  | minimum =>
    simp only [reduceCtorEq,or_self,and_false,iff_false]
    intro same
    have largest : (Int64.ofInt LONG_MAX).toInt = Method.minimum.statistic values := by
      rw [← same (fun _ => 0) 0]
      simp [Method.getValue,MinimumCyclicBuffer.getValue,nonzero,none,Scans.least]
    have bounds := (Scans.le_least_iff (fun _ => true) (fun i => (element buffer i).toInt) LONG_MAX _
      (List.range capacity.circular_buffersize.toNat)).mp (least_eq holds).ge
    have high : ∀ value ∈ values, 2 ^ 63 - 1 ≤ value := fun value member => by
      obtain ⟨i,inside,rfl⟩ := (holds.mem_iff value).mp member
      exact largest.le.trans (bounds.2 i (List.mem_range.mpr inside) rfl)
    have length := holds.length
    have sum := neighbours_le_sum holds.nonneg 0
    have small := holds.small
    rcases values with _ | ⟨first,_ | ⟨second,rest⟩⟩
    · rw [List.length_nil] at length
      omega
    · rw [List.length_singleton] at length
      omega
    · have firstHigh := high first (by simp)
      have secondHigh := high second (by simp)
      simp only [List.getD_cons_succ,List.getD_cons_zero] at sum
      omega
  | maximum =>
    simp [Method.getValue,MaximumCyclicBuffer.getValue,nonzero,none,Scans.greatest,eq_comm]

/-- The count of durations wraps around at 2 ^ 32, and sizes from 2 ^ 31 on are negative where they are used. -/
theorem predicts_iff (capacity : Capacity) (method : Method) (durations : List Int64)
    (nonneg : ∀ duration ∈ durations, 0 ≤ duration.toInt) (small : (window capacity durations).sum < 2 ^ 63) :
    Predicts capacity method durations ↔
      durations.length ≤ capacity.circular_buffersize.toNat ∨
      (capacity.circular_buffersize.toNat < 2 ^ 31 ∧
        capacity.circular_buffersize.toNat < durations.length % 2 ^ 32) ∨
      (method.statistic (window capacity durations) = 0 ∧
        (durations.length % 2 ^ 32 ≤ capacity.circular_buffersize.toNat ∨ method = .average ∨ method = .maximum)) := by
  have bound := capacity.circular_buffersize.toNat_lt
  simp only [Predicts,getNext_value]
  rcases le_or_gt durations.length capacity.circular_buffersize.toNat with few | many
  · have unfilled : ¬ capacity.circular_buffersize.toNat < durations.length % 2 ^ 32 := by omega
    simp only [if_neg unfilled,few.not_gt,few,if_false,true_or,iff_true]
    exact fun _ _ => rfl
  · simp only [if_pos many,many.not_ge,false_or]
    rcases le_or_gt (durations.length % 2 ^ 32) capacity.circular_buffersize.toNat with wrapped | filled
    · have zero : (0 : Int64).toInt = 0 := rfl
      simp only [wrapped,wrapped.not_gt,if_false,zero,and_false,true_or,and_true,false_or,forall_const]
      exact eq_comm
    · have holds := holds_window nonneg small filled.le
      simp only [filled.not_ge,false_or,filled,if_true,and_true]
      rcases lt_or_ge capacity.circular_buffersize.toNat (2 ^ 31) with usable | large
      · simp only [usable,true_or,iff_true]
        exact fun outside index => statistic_of_filled method outside index usable holds
      · simp only [large.not_gt,false_or]
        exact statistic_of_large_iff method large holds

end Predictions

/-- The median of the last two of three durations. -/
theorem median_predicted : Predicts ⟨2,by decide⟩ .median [7,3,5] ∧
    Method.median.statistic (window ⟨2,by decide⟩ [7,3,5]) = 4 :=
  ⟨(predicts_iff ⟨2,by decide⟩ .median [7,3,5] (by simp) (by decide)).mpr (.inr (.inl (by decide))),by decide⟩

/-- After 2 ^ 32 + 1 durations of 5 a buffer of one element predicts 0. -/
theorem zero_predicted_after_wrap : ¬ ∀ (capacity : Capacity) (method : Method) (durations : List Int64),
    (∀ duration ∈ durations, 0 ≤ duration.toInt) → (window capacity durations).sum < 2 ^ 63 →
    Predicts capacity method durations := by
  intro all
  have last : window ⟨1,by decide⟩ (List.replicate (2 ^ 32 + 1) (5 : Int64)) = [5] := by
    rw [window,List.length_replicate,List.drop_replicate,List.map_replicate]
    rfl
  have predicts := all ⟨1,by decide⟩ .average (List.replicate (2 ^ 32 + 1) 5)
    (fun duration member => by rw [List.eq_of_mem_replicate member]; decide) (by rw [last]; decide) (fun _ => 0) 0
  rw [getNext_value,last,List.length_replicate,if_neg (by decide),if_pos (by decide)] at predicts
  exact absurd predicts (by decide)

end Vexjine.WindowPredictors
