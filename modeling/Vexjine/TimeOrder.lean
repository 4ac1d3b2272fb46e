import Vexjine.AutoRegressions
import Vexjine.LinearRegressions
import Vexjine.MarkovStates
import Vexjine.WindowPredictors

/-!
# Predictions that depend on the order of the durations

The regressions, the auto-regressions and the Markov process are given the buffer as it lies in memory. When two
histories end with the same durations, these lie in the same places only if the next one is written to the same place.
-/

namespace Vexjine.TimeOrder
open MeasurementBuffers

/-! ## Auto-regressions -/

namespace AutoRegressions
open Vexjine.AutoRegressions

namespace BurgAutoRegression

/-- The arrays, with the indices of the source. -/
structure Arrays where
  pef : ℕ → ℚ
  per : ℕ → ℚ
  g : ℕ → ℚ

/-- A round of the loop. A division by 0 gives none. -/
def round (length : ℕ) (normalizedVector : ℕ → ℚ) (arrays : Arrays) (nn : ℕ) : Option Arrays :=
  let n := nn - 2
  let jj := length - n - 1
  let t1 j := normalizedVector (j + n) + arrays.pef j
  let t2 j := normalizedVector (j - 1) + arrays.per j
  let sn := ∑ j ∈ Finset.Icc 1 jj, -(2 * t1 j * t2 j)
  let sd := ∑ j ∈ Finset.Icc 1 jj, (t1 j * t1 j + t2 j * t2 j)
  if sd = 0 then none
  else
    let t1 := sn / sd
    let g := Function.update arrays.g nn t1
    let (g,jj) := if n ≠ 0
      then (fun j => if 2 ≤ j ∧ j < nn then g j + t1 * g (n + 3 - j) else g j,jj - 1)
      else (g,jj)
    -- The elements at `j + 1` are read before they are changed.
    some {
      per := fun j => if 1 ≤ j ∧ j ≤ jj
        then arrays.per j + (t1 * arrays.pef j + t1 * normalizedVector (j + nn - 2)) else arrays.per j
      pef := fun j => if 1 ≤ j ∧ j ≤ jj
        then arrays.pef (j + 1) + t1 * arrays.per (j + 1) + t1 * normalizedVector j else arrays.pef j
      g }

def autoregress (length : ℤ) (normalizedVector : ℕ → ℚ) : Outcome :=
  match (List.range' 2 (degree length).toNat).foldlM (round length.toNat normalizedVector)
      ⟨fun _ => 0,fun _ => 0,fun _ => 0⟩ with
  | none => .dividesByZero
  | some arrays => .solved fun i => -arrays.g (i + 2)

end BurgAutoRegression

/-- The prediction, converted to an integer. There is none when a number is divided by 0 or an index is outside an array. -/
def getNextPrediction (autoregress : ℤ → (ℕ → ℚ) → Outcome) (length : ℤ) (inputseries : ℕ → ℚ) : Option ℤ :=
  match autoregress length (normalizedVector length inputseries) with
  | .failed => some 0
  | .solved coefficients =>
    let prediction := mean length inputseries + ∑ i ∈ Finset.range (degree length).toNat,
      normalizedVector length inputseries (length.toNat - 1 - i) * coefficients i
    some (if prediction ≤ 0 then 0 else Floats.truncated prediction)
  | .dividesByZero => none
  | .outOfBounds => none

end AutoRegressions

/-! ## The Markov process -/

namespace MarkovModulatedProcess
open Vexjine.MarkovTraining

/-- The sizes that the constructor gives to the buffer and to the states. -/
def alloc (_circular_buffersize _states : ℕ) : ℕ × ℕ :=
  let circular_buffersize := if _circular_buffersize < 2 then 2 else _circular_buffersize
  let states := if _states < 2 then 2 else _states
  (circular_buffersize,if circular_buffersize < states then circular_buffersize else states)

variable (circular_buffersize states : ℕ) (process : MarkovTraining.MarkovModulatedProcess)

def transitions (i j : ℕ) : ℕ :=
  ((List.range (circular_buffersize - 1)).filter fun k =>
    process.bucketOfElement k = i ∧ process.bucketOfElement (k + 1) = j).length

/-- The rows of the matrix, accumulated. A row of a state that is never left is not a number. -/
def populateTransitionMatrix : Except Failure (List (List (Option ℚ))) :=
  if ∀ k ∈ List.range circular_buffersize, 0 ≤ process.bucketOfElement k ∧ process.bucketOfElement k < states
  then .ok ((List.range states).map fun i => (List.range states).map fun j =>
    let allTransitions := ∑ j ∈ Finset.range states, transitions circular_buffersize process i j
    if allTransitions = 0 then none
    else some (∑ j ∈ Finset.range (j + 1), (transitions circular_buffersize process i j / allTransitions : ℚ)))
  else .error .outOfRange

end MarkovModulatedProcess

/-! ## The predictors -/

inductive Predictor where
  | linearRegression
  | burgAutoRegression
  | yulesWalkerAutoRegression
  | markov (states : ℕ)

/-- A number, as far as it is defined, or the matrix of the transitions. -/
inductive Prediction where
  | value (number : Option ℤ)
  | matrix (rows : List (List (Option ℚ)))

variable {capacity : Capacity}

/-- The array that the predictors are given. -/
def raw (method : CyclicBufferBased capacity) (i : ℕ) : ℤ := (WindowPredictors.element method.buffer i).toInt

/-- `getNext` of a number that is computed from the full buffer. -/
def getNext (method : CyclicBufferBased capacity) (value : (ℕ → ℚ) → Option ℤ) : Prediction :=
  .value (if capacity.circular_buffersize < method.size then value fun i => raw method i else some 0)

/-- What a new predictor predicts behind the durations; a Markov process is trained then. A predictor whose
    constructor fails or does not end, or whose buffer has fewer elements than it uses, predicts nothing. -/
def Predicts (capacity : Capacity) (predictor : Predictor) (durations : List Int64) (prediction : Prediction) : Prop :=
  let method : CyclicBufferBased capacity := CyclicBufferBased.recorded durations
  let length := WindowPredictors.signed capacity.circular_buffersize
  match predictor with
  | .linearRegression => ∃ tests regression,
    LinearRegressions.construct capacity.circular_buffersize tests = some regression ∧
      prediction = getNext method regression.apply
  | .burgAutoRegression => 0 ≤ Vexjine.AutoRegressions.degree length ∧
    prediction = getNext method (AutoRegressions.getNextPrediction AutoRegressions.BurgAutoRegression.autoregress length)
  | .yulesWalkerAutoRegression => 0 ≤ Vexjine.AutoRegressions.degree length ∧
    prediction = getNext method
      (AutoRegressions.getNextPrediction Vexjine.AutoRegressions.YulesWalkerAutoRegression.autoregress length)
  | .markov states =>
    let (size,states) := MarkovModulatedProcess.alloc capacity.circular_buffersize.toNat states
    size = capacity.circular_buffersize.toNat ∧
      if capacity.circular_buffersize < method.size
      then ∃ rounds process rows, MarkovTraining.setStateLimits size states rounds (raw method) = .ok process ∧
        MarkovModulatedProcess.populateTransitionMatrix size states process = .ok rows ∧ prediction = .matrix rows
      else prediction = .value (some 0)

/-- Histories of the given lengths that end with the same durations lead to the same predictions. -/
def InTimeOrder (capacity : Capacity) (first second : ℕ) : Prop :=
  ∀ earlier later : List Int64, earlier.length = first → later.length = second →
    WindowPredictors.window capacity earlier = WindowPredictors.window capacity later →
    ∀ predictor prediction, Predicts capacity predictor earlier prediction ↔ Predicts capacity predictor later prediction

/-! ## Where the durations lie -/

private theorem filled_iff (durations : List Int64) :
    capacity.circular_buffersize < (CyclicBufferBased.recorded durations : CyclicBufferBased capacity).size ↔
      capacity.circular_buffersize.toNat < durations.length % 2 ^ 32 := by
  rw [UInt32.lt_iff_toNat_lt,WindowPredictors.size_recorded,UInt32.toNat_ofNat']

/-- The element at a position is as many durations behind the oldest one as it is behind the next position. -/
private theorem buffer_recorded {durations : List Int64}
    (filled : capacity.circular_buffersize.toNat ≤ durations.length % 2 ^ 32) (position : capacity.Position) :
    some ((CyclicBufferBased.recorded durations : CyclicBufferBased capacity).buffer position).toInt =
      (WindowPredictors.window capacity durations)[(position.val + (capacity.circular_buffersize.toNat -
        durations.length % 2 ^ 32 % capacity.circular_buffersize.toNat)) % capacity.circular_buffersize.toNat]? := by
  have positive := capacity.positive
  have inside := position.isLt
  have bound := Nat.mod_lt durations.length (show 0 < 2 ^ 32 by decide)
  have stored := fun time => WindowPredictors.element_recorded filled time
  generalize durations.length % 2 ^ 32 = length at *
  have remainder := Nat.mod_lt length positive
  have parts := Nat.div_add_mod length capacity.circular_buffersize.toNat
  have later := Nat.mod_lt (position.val + (capacity.circular_buffersize.toNat -
    length % capacity.circular_buffersize.toNat)) positive
  rw [← stored _ later]
  refine congrArg (fun position => some ((CyclicBufferBased.recorded durations).buffer position).toInt) (Fin.ext ?_)
  rw [WindowPredictors.at_ofNat (by omega),Nat.add_mod_mod]
  have sum : length - capacity.circular_buffersize.toNat + (position.val + (capacity.circular_buffersize.toNat -
      length % capacity.circular_buffersize.toNat)) =
      position.val + capacity.circular_buffersize.toNat * (length / capacity.circular_buffersize.toNat) := by omega
  rw [sum,Nat.add_mul_mod_self_left,Nat.mod_eq_of_lt inside]

private theorem raw_recorded {durations : List Int64}
    (filled : capacity.circular_buffersize.toNat ≤ durations.length % 2 ^ 32) (i : ℕ) :
    some (raw (CyclicBufferBased.recorded durations : CyclicBufferBased capacity) i) =
      (WindowPredictors.window capacity durations)[((capacity.at (UInt32.ofNat i)).val +
        (capacity.circular_buffersize.toNat - durations.length % 2 ^ 32 % capacity.circular_buffersize.toNat)) %
          capacity.circular_buffersize.toNat]? :=
  buffer_recorded filled _

/-- The same durations at the end, and the same position for the next one. -/
private theorem raw_congr {earlier later : List Int64}
    (same : WindowPredictors.window capacity earlier = WindowPredictors.window capacity later)
    (earlierFilled : capacity.circular_buffersize.toNat ≤ earlier.length % 2 ^ 32)
    (laterFilled : capacity.circular_buffersize.toNat ≤ later.length % 2 ^ 32)
    (positions : earlier.length % 2 ^ 32 % capacity.circular_buffersize.toNat =
      later.length % 2 ^ 32 % capacity.circular_buffersize.toNat) :
    raw (CyclicBufferBased.recorded earlier : CyclicBufferBased capacity) =
      raw (CyclicBufferBased.recorded later : CyclicBufferBased capacity) := by
  funext i
  have first := raw_recorded earlierFilled i
  rw [same,positions,← raw_recorded laterFilled i] at first
  exact Option.some.inj first

/-! ## A single long duration -/

/-- The history of the given length that ends with the durations of the buffer, one of them 2 and the others 0. -/
def spiked (capacity : Capacity) (length time : ℕ) : List Int64 :=
  List.replicate (length - capacity.circular_buffersize.toNat) 0 ++
    (List.range capacity.circular_buffersize.toNat).map fun t => if t = time then 2 else 0

private theorem length_spiked {length : ℕ} (enough : capacity.circular_buffersize.toNat ≤ length) (time : ℕ) :
    (spiked capacity length time).length = length := by
  simp only [spiked,List.length_append,List.length_replicate,List.length_map,List.length_range]
  omega

private theorem window_spiked {length : ℕ} (enough : capacity.circular_buffersize.toNat ≤ length) (time : ℕ) :
    WindowPredictors.window capacity (spiked capacity length time) =
      (List.range capacity.circular_buffersize.toNat).map fun t => if t = time then 2 else 0 := by
  rw [WindowPredictors.window,length_spiked enough,spiked,List.drop_left' List.length_replicate,List.map_map]
  refine List.map_congr_left fun t _ => ?_
  rw [Function.comp_apply]
  split_ifs <;> rfl

private theorem mod_of_lt_two_mul {value size : ℕ} (small : value < size + size) :
    value % size = if value < size then value else value - size := by
  split_ifs with below
  · exact Nat.mod_eq_of_lt below
  · rw [Nat.mod_eq_sub_mod (not_lt.mp below),Nat.mod_eq_of_lt (by omega)]

/-- How far an index is behind another one, in a cycle. -/
private theorem behind_iff {k time next size : ℕ} (element : k < size) (inside : time < size) (position : next < size) :
    (k + (size - next)) % size = time ↔ k = (next + time) % size := by
  rw [mod_of_lt_two_mul (show k + (size - next) < size + size by omega),
    mod_of_lt_two_mul (show next + time < size + size by omega)]
  split_ifs <;> omega

/-- The long duration lies as far behind the next position as it is behind the oldest duration. -/
private theorem raw_spiked {length time : ℕ} (enough : capacity.circular_buffersize.toNat ≤ length)
    (filled : capacity.circular_buffersize.toNat ≤ length % 2 ^ 32) (inside : time < capacity.circular_buffersize.toNat)
    (k : ℕ) (element : k < capacity.circular_buffersize.toNat) :
    raw (CyclicBufferBased.recorded (spiked capacity length time) : CyclicBufferBased capacity) k =
      if k = (length % 2 ^ 32 % capacity.circular_buffersize.toNat + time) % capacity.circular_buffersize.toNat
      then 2 else 0 := by
  have fits := capacity.circular_buffersize.toNat_lt
  have position := Nat.mod_lt (length % 2 ^ 32) capacity.positive
  have full : capacity.circular_buffersize.toNat ≤ (spiked capacity length time).length % 2 ^ 32 := by
    rwa [length_spiked enough]
  have found := raw_recorded full k
  rw [length_spiked enough,window_spiked enough,WindowPredictors.at_ofNat (by omega),Nat.mod_eq_of_lt element] at found
  have later := Nat.mod_lt (k + (capacity.circular_buffersize.toNat - length % 2 ^ 32 % capacity.circular_buffersize.toNat))
    capacity.positive
  rw [List.getElem?_map,List.getElem?_range later,Option.map_some,Option.some_inj] at found
  rw [found]
  exact if_congr (behind_iff element inside position) rfl rfl

/-! ### Its matrix -/

section Spike

open MarkovTraining

variable {size p : ℕ} {buffer : ℕ → ℤ}

/-- The probability of the first state to stay. -/
private def corner (rows : List (List (Option ℚ))) : Option ℚ := (rows.head?.bind List.head?).join

private theorem corner_lt_one_iff {process : MarkovTraining.MarkovModulatedProcess} {rows : List (List (Option ℚ))}
    (populated : MarkovModulatedProcess.populateTransitionMatrix size 2 process = .ok rows) :
    (∃ probability < 1, corner rows = some probability) ↔ MarkovModulatedProcess.transitions size process 0 1 ≠ 0 := by
  rw [MarkovModulatedProcess.populateTransitionMatrix] at populated
  split at populated
  · cases populated
    generalize MarkovModulatedProcess.transitions size process = transitions
    have first : corner ((List.range 2).map fun i => (List.range 2).map fun j =>
        let allTransitions := ∑ j ∈ Finset.range 2, transitions i j
        if allTransitions = 0 then none
        else some (∑ j ∈ Finset.range (j + 1), (transitions i j / allTransitions : ℚ))) =
        if transitions 0 0 + transitions 0 1 = 0 then none
        else some ((transitions 0 0 : ℚ) / (transitions 0 0 + transitions 0 1 : ℕ)) := by
      simp [corner,List.range_succ,Finset.sum_range_succ]
    rw [first]
    generalize transitions 0 1 = left
    generalize transitions 0 0 = stays
    split_ifs with never
    · simp only [and_false,exists_false,false_iff,not_not]
      omega
    · have positive : (0 : ℚ) < (stays + left : ℕ) := by exact_mod_cast Nat.pos_of_ne_zero never
      have fewer : (stays : ℚ) / (stays + left : ℕ) < 1 ↔ left ≠ 0 := by
        rw [div_lt_one positive,Nat.cast_lt]
        omega
      rw [← fewer]
      constructor
      · rintro ⟨probability,below,same⟩
        exact Option.some.inj same ▸ below
      · exact fun below => ⟨_,below,rfl⟩
  · cases populated

private theorem spike_trained (several : 2 ≤ size) (representable : size < 2 ^ 32) (inside : p < size)
    (spike : ∀ k < size, buffer k = if k = p then 2 else 0) :
    ∃ process, setStateLimits size 2 1 buffer = .ok process ∧
      ∀ k < size, process.bucketOfElement k = if k = p then 1 else 0 := by
  have measured : ∀ k < size, 0 ≤ buffer k ∧ buffer k ≤ LLONG_MAX := fun k element => by
    rw [spike k element,LLONG_MAX]
    split_ifs <;> omega
  have high : buffer p = 2 := by rw [spike p inside,if_pos rfl]
  have low : ∃ k < size, buffer k = 0 := by
    rcases eq_or_ne p 0 with rfl | notFirst
    · exact ⟨1,several,by rw [spike 1 several,if_neg Nat.one_ne_zero]⟩
    · exact ⟨0,by omega,by rw [spike 0 (by omega),if_neg notFirst.symm]⟩
  obtain ⟨quiet,quietInside,quietValue⟩ := low
  obtain ⟨⟨least,leastInside,-,leastValue⟩,⟨greatest,greatestInside,-,greatestValue⟩,bounds⟩ :=
    @MarkovTraining.MarkovModulatedProcess.extremes size (.init buffer) (-1) measured ⟨p,inside,rfl⟩
  have quietBounds : _ ≤ buffer quiet ∧ buffer quiet ≤ _ := bounds quiet quietInside rfl
  have spikeBounds : _ ≤ buffer p ∧ buffer p ≤ _ := bounds p inside rfl
  have leastAtLeast : 0 ≤ buffer least := (measured least leastInside).1
  have greatestAtMost : buffer greatest ≤ 2 := by
    rw [spike greatest greatestInside]
    split_ifs <;> decide
  change buffer least = _ at leastValue
  change buffer greatest = _ at greatestValue
  have min : (MarkovTraining.MarkovModulatedProcess.init buffer).min size (-1) = 0 := by omega
  have step : (MarkovTraining.MarkovModulatedProcess.init buffer).step size (-1) 2 = 1 := by
    have max : (MarkovTraining.MarkovModulatedProcess.init buffer).max size (-1) = 2 := by omega
    rw [MarkovTraining.MarkovModulatedProcess.step,min,max]
    decide
  obtain ⟨process,trained,buckets⟩ := two_states several representable measured
    (show (MarkovTraining.MarkovModulatedProcess.init buffer).step size (-1) 2 ≠ 0 by rw [step]; decide)
  refine ⟨process,trained,fun k element => ?_⟩
  obtain ⟨number,-,inBucket,into⟩ := buckets k element
  rw [inBucket,← into,min,step,spike k element]
  split_ifs <;> decide

/-- The first state is left, unless the long duration is the first element. -/
private theorem spike_matrix (several : 2 ≤ size) (representable : size < 2 ^ 32) (inside : p < size)
    (spike : ∀ k < size, buffer k = if k = p then 2 else 0) :
    (∃ process rows, setStateLimits size 2 1 buffer = .ok process ∧
      MarkovModulatedProcess.populateTransitionMatrix size 2 process = .ok rows) ∧
    ∀ rounds process rows, setStateLimits size 2 rounds buffer = .ok process →
      MarkovModulatedProcess.populateTransitionMatrix size 2 process = .ok rows →
        ((∃ probability < 1, corner rows = some probability) ↔ p ≠ 0) := by
  obtain ⟨process,trained,buckets⟩ := spike_trained several representable inside spike
  constructor
  · have bounded : ∀ k ∈ List.range size, 0 ≤ process.bucketOfElement k ∧ process.bucketOfElement k < (2 : ℕ) :=
      fun k member => by
        rw [buckets k (List.mem_range.mp member)]
        split_ifs <;> decide
    exact ⟨process,_,trained,if_pos bounded⟩
  · intro rounds other rows again populated
    obtain rfl := Loop.run_unique trained again
    rw [corner_lt_one_iff populated,MarkovModulatedProcess.transitions,← Nat.pos_iff_ne_zero,List.length_pos_iff_exists_mem]
    simp only [List.mem_filter,List.mem_range,decide_eq_true_eq]
    constructor
    · rintro ⟨k,before,-,next⟩
      rw [buckets (k + 1) (by omega)] at next
      split_ifs at next <;> omega
    · intro notFirst
      refine ⟨p - 1,by omega,?_,?_⟩
      · rw [buckets (p - 1) (by omega),if_neg (by omega)]
        rfl
      · rw [Nat.sub_add_cancel (by omega),buckets p inside,if_pos rfl]
        rfl

end Spike

/-! ## The predictions -/

private theorem InTimeOrder.symm {first second : ℕ} (ordered : InTimeOrder capacity first second) :
    InTimeOrder capacity second first :=
  fun earlier later length length' same predictor prediction =>
    (ordered later earlier length' length same.symm predictor prediction).symm

/-- A prediction is made from the buffer, once it was filled. -/
private theorem predicts_congr {earlier later : List Int64}
    (both : capacity.circular_buffersize.toNat < earlier.length % 2 ^ 32 ↔
      capacity.circular_buffersize.toNat < later.length % 2 ^ 32)
    (same : capacity.circular_buffersize.toNat < earlier.length % 2 ^ 32 →
      raw (CyclicBufferBased.recorded earlier : CyclicBufferBased capacity) =
        raw (CyclicBufferBased.recorded later : CyclicBufferBased capacity))
    (predictor : Predictor) (prediction : Prediction) :
    Predicts capacity predictor earlier prediction ↔ Predicts capacity predictor later prediction := by
  have value : getNext (CyclicBufferBased.recorded earlier : CyclicBufferBased capacity) =
      getNext (CyclicBufferBased.recorded later : CyclicBufferBased capacity) := by
    funext value
    rw [getNext,getNext]
    simp only [filled_iff,← both]
    split_ifs with filled
    · rw [same filled]
    · rfl
  cases predictor with
  | linearRegression => simp only [Predicts,value]
  | burgAutoRegression => simp only [Predicts,value]
  | yulesWalkerAutoRegression => simp only [Predicts,value]
  | markov states =>
    simp only [Predicts,filled_iff,← both]
    split_ifs with filled
    · rw [same filled]
    · rfl

private theorem predicts_markov_iff (several : 2 ≤ capacity.circular_buffersize.toNat) {durations : List Int64}
    (filled : capacity.circular_buffersize.toNat < durations.length % 2 ^ 32)
    (prediction : Prediction) : Predicts capacity (.markov 2) durations prediction ↔
      ∃ rounds process rows, MarkovTraining.setStateLimits capacity.circular_buffersize.toNat 2 rounds
          (raw (CyclicBufferBased.recorded durations : CyclicBufferBased capacity)) = .ok process ∧
        MarkovModulatedProcess.populateTransitionMatrix capacity.circular_buffersize.toNat 2 process = .ok rows ∧
        prediction = .matrix rows := by
  have sizes : MarkovModulatedProcess.alloc capacity.circular_buffersize.toNat 2 =
      (capacity.circular_buffersize.toNat,2) := by
    rw [MarkovModulatedProcess.alloc,if_neg (by omega)]
    simp only [lt_self_iff_false,if_false,if_neg (show ¬capacity.circular_buffersize.toNat < 2 by omega)]
  simp only [Predicts,sizes,true_and,if_pos ((filled_iff durations).mpr filled)]

private theorem predicts_spiked (several : 2 ≤ capacity.circular_buffersize.toNat) {length time : ℕ}
    (enough : capacity.circular_buffersize.toNat ≤ length)
    (filled : capacity.circular_buffersize.toNat < length % 2 ^ 32) (inside : time < capacity.circular_buffersize.toNat) :
    (∃ rows, Predicts capacity (.markov 2) (spiked capacity length time) (.matrix rows)) ∧
    ∀ rows, Predicts capacity (.markov 2) (spiked capacity length time) (.matrix rows) →
      ((∃ probability < 1, corner rows = some probability) ↔
        (length % 2 ^ 32 % capacity.circular_buffersize.toNat + time) % capacity.circular_buffersize.toNat ≠ 0) := by
  obtain ⟨⟨process,rows,trained,populated⟩,corners⟩ := spike_matrix several capacity.circular_buffersize.toNat_lt
    (Nat.mod_lt _ capacity.positive) (raw_spiked enough filled.le inside)
  have spiked_iff := @predicts_markov_iff _ several (spiked capacity length time) (by rwa [length_spiked enough])
  refine ⟨⟨rows,(spiked_iff _).mpr ⟨1,process,rows,trained,populated,rfl⟩⟩,fun rows predicted => ?_⟩
  obtain ⟨rounds,process,_,trained,populated,same⟩ := (spiked_iff _).mp predicted
  cases same
  exact corners rounds process rows trained populated

/-- A history that leads to predictions and one that leads to 0. -/
private theorem filled_of_ordered {first second : ℕ} (ordered : InTimeOrder capacity first second)
    (enough : capacity.circular_buffersize.toNat ≤ first) (enough' : capacity.circular_buffersize.toNat ≤ second)
    (filled : capacity.circular_buffersize.toNat < first % 2 ^ 32) :
    capacity.circular_buffersize.toNat < second % 2 ^ 32 := by
  by_contra notFilled
  have positive := capacity.positive
  have same : WindowPredictors.window capacity _ = WindowPredictors.window capacity _ :=
    (window_spiked enough 0).trans (window_spiked enough' 0).symm
  have law := ordered _ _ (length_spiked enough 0) (length_spiked enough' 0) same
  have filledFirst : capacity.circular_buffersize <
      (CyclicBufferBased.recorded (spiked capacity first 0) : CyclicBufferBased capacity).size :=
    (filled_iff _).mpr (by rwa [length_spiked enough])
  have notFilledSecond : ¬capacity.circular_buffersize <
      (CyclicBufferBased.recorded (spiked capacity second 0) : CyclicBufferBased capacity).size :=
    (filled_iff _).not.mpr (by rwa [length_spiked enough'])
  rcases Nat.lt_or_ge capacity.circular_buffersize.toNat 2 with one | several
  · have size : capacity.circular_buffersize = 1 := UInt32.toNat_inj.mp (show _ = 1 by omega)
    have constructed : LinearRegressions.construct capacity.circular_buffersize 2 = some ⟨1,1,1⟩ := by
      rw [size]
      simp [LinearRegressions.construct,LinearRegressions.accumulate,UInt32.le_iff_toNat_le]
    obtain ⟨tests,regression,found,value⟩ := (law .linearRegression (.value (some 0))).mpr
      ⟨2,_,constructed,by rw [getNext,if_neg notFilledSecond]⟩
    rw [size] at found
    rw [getNext,if_pos filledFirst,LinearRegressions.LinearRegression.apply,
      LinearRegressions.LinearRegression.extrapolated,if_pos (.inl (LinearRegressions.denominator_of_one found))] at value
    cases value
  · obtain ⟨rows,predicted⟩ := (predicts_spiked several enough filled positive).1
    have other := (law _ _).mp predicted
    simp only [Predicts,if_neg notFilledSecond,reduceCtorEq,and_false] at other

/-- The position of the oldest duration. -/
private theorem position_of_ordered {first second : ℕ} (ordered : InTimeOrder capacity first second)
    (enough : capacity.circular_buffersize.toNat ≤ first) (enough' : capacity.circular_buffersize.toNat ≤ second)
    (filled : capacity.circular_buffersize.toNat < first % 2 ^ 32)
    (filled' : capacity.circular_buffersize.toNat < second % 2 ^ 32) :
    first % 2 ^ 32 % capacity.circular_buffersize.toNat = second % 2 ^ 32 % capacity.circular_buffersize.toNat := by
  by_contra apart
  have position := Nat.mod_lt (first % 2 ^ 32) capacity.positive
  have position' := Nat.mod_lt (second % 2 ^ 32) capacity.positive
  generalize next_eq : first % 2 ^ 32 % capacity.circular_buffersize.toNat = next at *
  generalize next_eq' : second % 2 ^ 32 % capacity.circular_buffersize.toNat = next' at *
  have several : 2 ≤ capacity.circular_buffersize.toNat := by omega
  -- The long duration is the first element of one buffer, and not of the other.
  have time := Nat.mod_lt (capacity.circular_buffersize.toNat - next) capacity.positive
  have same : WindowPredictors.window capacity _ = WindowPredictors.window capacity _ :=
    (window_spiked enough ((capacity.circular_buffersize.toNat - next) % capacity.circular_buffersize.toNat)).trans
      (window_spiked enough' _).symm
  obtain ⟨⟨rows,predicted⟩,corners⟩ := predicts_spiked several enough filled time
  have other := (ordered _ _ (length_spiked enough _) (length_spiked enough' _) same _ _).mp predicted
  have atFirst := corners rows predicted
  have notFirst := (predicts_spiked several enough' filled' time).2 rows other
  rw [next_eq,mod_of_lt_two_mul (by omega)] at atFirst
  rw [next_eq',mod_of_lt_two_mul (by omega)] at notFirst
  have split := mod_of_lt_two_mul (show capacity.circular_buffersize.toNat - next <
    capacity.circular_buffersize.toNat + capacity.circular_buffersize.toNat by omega)
  have contradiction := atFirst.symm.trans notFirst
  rw [split] at contradiction
  split_ifs at contradiction <;> omega

/-- The predictions see the durations in the order of time exactly if both histories fill the buffer, or both do not,
    and then the next duration is written to the same position. -/
theorem in_time_order_iff {first second : ℕ} (enough : capacity.circular_buffersize.toNat ≤ first)
    (enough' : capacity.circular_buffersize.toNat ≤ second) :
    InTimeOrder capacity first second ↔
      (capacity.circular_buffersize.toNat < first % 2 ^ 32 ↔ capacity.circular_buffersize.toNat < second % 2 ^ 32) ∧
      (capacity.circular_buffersize.toNat < first % 2 ^ 32 →
        first % 2 ^ 32 % capacity.circular_buffersize.toNat = second % 2 ^ 32 % capacity.circular_buffersize.toNat) := by
  constructor
  · intro ordered
    have both : capacity.circular_buffersize.toNat < first % 2 ^ 32 ↔
        capacity.circular_buffersize.toNat < second % 2 ^ 32 :=
      ⟨filled_of_ordered ordered enough enough',filled_of_ordered ordered.symm enough' enough⟩
    exact ⟨both,fun filled => position_of_ordered ordered enough enough' filled (both.mp filled)⟩
  · rintro ⟨both,positions⟩ earlier later rfl rfl same predictor prediction
    exact predicts_congr both (fun filled => raw_congr same filled.le (both.mp filled).le (positions filled))
      predictor prediction

/-- Two lengths that differ by the size of the buffer. -/
theorem in_time_order_of_rotation : InTimeOrder ⟨2,by decide⟩ 3 5 :=
  (in_time_order_iff (by decide) (by decide)).mpr (by decide)

/-- The line through two measurements, continued. -/
private theorem apply_two (buffer : ℕ → ℤ) :
    (⟨2,3,5⟩ : LinearRegressions.LinearRegression).apply (fun i => buffer i) = some (2 * buffer 1 - buffer 0) := by
  have denominator : (⟨2,3,5⟩ : LinearRegressions.LinearRegression).denominator = 1 := by decide
  have next : ((2 : UInt32) + 1).toNat = 3 := by decide
  have size : (2 : UInt32).toNat = 2 := by decide
  rw [LinearRegressions.LinearRegression.apply,LinearRegressions.LinearRegression.extrapolated,denominator,
    if_neg (by decide)]
  simp only [LinearRegressions.LinearRegression.Sxy,LinearRegressions.LinearRegression.Sy,next,size,
    Finset.sum_range_succ,Finset.sum_range_zero,Option.map_some]
  rw [← Floats.truncated_intCast (2 * buffer 1 - buffer 0)]
  push_cast
  congr 2
  ring

/-- The durations 1 and 2 at the end: their regression gives 3, and 0 when they lie in the buffer the other way. -/
theorem not_in_time_order : ¬InTimeOrder ⟨2,by decide⟩ 3 4 := by
  intro ordered
  have constructed : LinearRegressions.construct 2 4 = some ⟨2,3,5⟩ := by
    simp [LinearRegressions.construct,LinearRegressions.accumulate,UInt32.le_iff_toNat_le]
  have law := ordered [9,1,2] [9,9,1,2] rfl rfl (by decide) .linearRegression (.value (some 3))
  obtain ⟨tests,regression,found,value⟩ := law.mpr ⟨4,_,constructed,by
    rw [getNext,if_pos (by decide),apply_two]
    exact congrArg (fun number => Prediction.value (some number)) (by decide)⟩
  rw [LinearRegressions.construct_unique found constructed,getNext,if_pos (by decide),apply_two] at value
  have number := Option.some.inj (Prediction.value.inj value)
  revert number
  decide

end Vexjine.TimeOrder
