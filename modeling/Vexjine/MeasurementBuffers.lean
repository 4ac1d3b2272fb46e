import Vexjine.Documents

/-!
# Buffers of measurements

The prediction methods keep the last measured durations in a cyclic buffer, and predict
from it once more durations were recorded than it holds. A buffer is exported to a text
file and imported from it.
-/

namespace Vexjine.MeasurementBuffers
open DecimalLines

/-- The number of elements of a buffer. -/
structure Capacity where
  circular_buffersize : UInt32
  positive : 0 < circular_buffersize.toNat

variable {capacity : Capacity}

/-- The indices of the elements. -/
abbrev Capacity.Position (capacity : Capacity) : Type := Fin capacity.circular_buffersize.toNat

/-- The position of the element that is `count` elements behind the first one. -/
def Capacity.at (capacity : Capacity) (count : UInt32) : capacity.Position :=
  ⟨count.toNat % capacity.circular_buffersize.toNat,Nat.mod_lt _ capacity.positive⟩

structure CyclicBufferBased (capacity : Capacity) where
  buffer : capacity.Position → Int64
  size : UInt32
  index : UInt32

/-- `getValue` of a method, as a function of what it reads: the elements, how many of them are used, and
    the index. It gives a value and the next index. -/
abbrev Values (capacity : Capacity) : Type := (capacity.Position → Int64) → UInt32 → UInt32 → Int64 × UInt32

namespace ReplayCyclicBuffer

def getValue : Values capacity := fun buffer _ index =>
  let index := index % capacity.circular_buffersize
  (buffer (capacity.at index),index + 1)

end ReplayCyclicBuffer

namespace CyclicBufferBased

/-- The constructor. -/
def fresh : CyclicBufferBased capacity := ⟨fun _ => 0,0,0⟩

variable (method : CyclicBufferBased capacity)

/-- `buffer[(size++) % circular_buffersize] = value`. -/
def store (value : Int64) : CyclicBufferBased capacity :=
  { method with
    buffer := Function.update method.buffer (capacity.at method.size) value
    size := method.size + 1 }

/-- The log is left out. -/
def addPredictionInfo (realTimeValueOnExit : Int64) : CyclicBufferBased capacity := method.store realTimeValueOnExit

def getCurrentSize : UInt32 :=
  if capacity.circular_buffersize < method.size then capacity.circular_buffersize else method.size

def getNext (getValue : Values capacity) : Int64 × CyclicBufferBased capacity :=
  if capacity.circular_buffersize < method.size then
    let (prediction,index) := getValue method.buffer method.getCurrentSize method.index
    (prediction,{ method with index })
  else (0,method)

def exportToFile : List Char := written ((List.ofFn method.buffer).map Int64.toInt)

def importFromFile (file : List Char) : CyclicBufferBased capacity :=
  (getlines file).foldl (fun method line => method.store (Int64.ofInt (atoll line))) method

/-- The first predictions of the method. -/
def predictions (getValue : Values capacity) : Nat → CyclicBufferBased capacity → List Int64
  | 0, _ => []
  | count + 1, method => (method.getNext getValue).1 :: predictions getValue count (method.getNext getValue).2

/-- The method after the durations were recorded. -/
def recorded (durations : List Int64) : CyclicBufferBased capacity := durations.foldl addPredictionInfo fresh

/-- The file restores the elements, and the predictions made from them. -/
structure RoundTrip (getValue : Values capacity) : Prop where
  buffer : (fresh.importFromFile method.exportToFile).buffer = method.buffer
  predictions : ∀ count, predictions getValue count (fresh.importFromFile method.exportToFile) =
    predictions getValue count method

/-- The first values that a method takes out of the full buffer. -/
def values (getValue : Values capacity) (buffer : capacity.Position → Int64) : Nat → UInt32 → List Int64
  | 0, _ => []
  | count + 1, index =>
    let (value,index) := getValue buffer capacity.circular_buffersize index
    value :: values getValue buffer count index

/-! ## The file -/

private theorem store_many {elements : capacity.Position → Int64} (count : Nat)
    (inside : count ≤ capacity.circular_buffersize.toNat) :
    ((List.ofFn elements).take count).foldl store fresh =
      ⟨fun position => if position.val < count then elements position else 0,UInt32.ofNat count,0⟩ := by
  induction count with
  | zero => simp [fresh]
  | succ count ih =>
    have before : count < capacity.circular_buffersize.toNat := inside
    have number : (UInt32.ofNat count).toNat = count :=
      UInt32.toNat_ofNat_of_lt' (before.trans capacity.circular_buffersize.toNat_lt)
    have position : capacity.at (UInt32.ofNat count) = ⟨count,before⟩ := by
      simp only [Capacity.at,number,Nat.mod_eq_of_lt before]
    have next : (List.ofFn elements)[count]?.toList = [elements ⟨count,before⟩] := by simp [before]
    rw [List.take_add_one,next,List.foldl_append,ih before.le,List.foldl_cons,List.foldl_nil,store,position]
    congr 1
    · funext other
      rcases eq_or_ne other ⟨count,before⟩ with rfl | different
      · simp
      · have apart : other.val ≠ count := fun same => different (Fin.ext same)
        have iff : other.val < count + 1 ↔ other.val < count := by omega
        simp only [Function.update_of_ne different,iff]
    · exact (UInt32.ofNat_add count 1).symm

private theorem store_all (elements : capacity.Position → Int64) :
    (List.ofFn elements).foldl store fresh = ⟨elements,capacity.circular_buffersize,0⟩ := by
  have all := @store_many _ elements capacity.circular_buffersize.toNat le_rfl
  rw [List.take_of_length_le (by simp)] at all
  rw [all]
  congr 1
  · funext position
    exact if_pos position.isLt
  · exact UInt32.ofNat_toNat

/-- The empty line behind the last number is stored as a 0 in the first element. -/
theorem importFromFile_exportToFile (method : CyclicBufferBased capacity) :
    fresh.importFromFile method.exportToFile =
      ⟨Function.update method.buffer (capacity.at 0) 0,capacity.circular_buffersize + 1,0⟩ := by
  have read : ∀ element : Int64, Int64.ofInt (atoll (printed element.toInt)) = element := fun element => by
    rw [atoll_printed element.le_toInt element.toInt_lt,Int64.ofInt_toInt]
  have first : capacity.at capacity.circular_buffersize = capacity.at 0 := by simp [Capacity.at]
  rw [importFromFile,exportToFile,getlines_written,List.foldl_append,List.map_map,List.foldl_map]
  simp only [Function.comp_apply,read]
  rw [store_all]
  simp [store,first]

/-! ## Predictions -/

private theorem recorded_index (capacity : Capacity) (durations : List Int64) :
    (recorded durations : CyclicBufferBased capacity).index = 0 := by
  induction durations using List.reverseRecOn with
  | nil => rfl
  | append_singleton durations last ih =>
    rw [recorded,List.foldl_append]
    exact ih

private theorem lt_succ {size : UInt32} (noWrap : size + 1 ≠ 0) : size < size + 1 := by
  grind

private theorem not_lt_of_wraps {size : UInt32} (wraps : size + 1 = 0) (other : UInt32) : ¬ size < other := by
  grind

section Filled
variable {getValue : Values capacity}

/-- A method whose durations are more than it holds takes all its predictions out of the buffer. -/
private theorem predictions_of_filled (count : Nat) : ∀ method : CyclicBufferBased capacity,
    capacity.circular_buffersize < method.size →
    predictions getValue count method = values getValue method.buffer count method.index := by
  induction count with
  | zero =>
    intro method filled
    rfl
  | succ count ih =>
    intro method filled
    have next : method.getNext getValue =
        ((getValue method.buffer capacity.circular_buffersize method.index).1,
          { method with index := (getValue method.buffer capacity.circular_buffersize method.index).2 }) := by
      rw [getNext,if_pos filled,getCurrentSize,if_pos filled]
    rw [predictions,next,values]
    exact congrArg _ (ih _ filled)

private theorem predictions_of_unfilled (count : Nat) {method : CyclicBufferBased capacity}
    (unfilled : ¬ capacity.circular_buffersize < method.size) :
    predictions getValue count method = List.replicate count 0 := by
  induction count with
  | zero => rfl
  | succ count ih =>
    have next : method.getNext getValue = (0,method) := if_neg unfilled
    rw [predictions,next,List.replicate_succ,ih]

private theorem values_length (buffer : capacity.Position → Int64) (count : Nat) : ∀ index,
    (values getValue buffer count index).length = count := by
  induction count with
  | zero =>
    intro index
    rfl
  | succ count ih =>
    intro index
    exact congrArg Nat.succ (ih _)

private theorem values_replicate_iff (buffer : capacity.Position → Int64) (count : Nat) (index : UInt32) :
    values getValue buffer count index = List.replicate count 0 ↔ ∀ value ∈ values getValue buffer count index, value = 0 := by
  rw [List.eq_replicate_iff]
  exact and_iff_right (values_length buffer count index)

end Filled

/-- Whether the imported method, which holds as many durations as fit, predicts where the original does:
    the original was filled, or the count of the imported one has wrapped around, or all values are 0. -/
def PredictsWhereImported (getValue : Values capacity) : Prop :=
  capacity.circular_buffersize < method.size ∨ capacity.circular_buffersize + 1 = 0 ∨
    ∀ count, ∀ value ∈ values getValue method.buffer count 0, value = 0

/-- The file keeps the elements exactly when the first one is 0, and then the predictions exactly when more
    durations were recorded than the buffer holds (or there is nothing but zeros to predict). -/
theorem roundTrip_iff (capacity : Capacity) (durations : List Int64) (getValue : Values capacity) :
    RoundTrip (recorded durations) getValue ↔
      (recorded durations : CyclicBufferBased capacity).buffer (capacity.at 0) = 0 ∧
        (recorded durations).PredictsWhereImported getValue := by
  have fromStart := recorded_index capacity durations
  generalize recorded durations = method at *
  have imported := importFromFile_exportToFile method
  have kept : Function.update method.buffer (capacity.at 0) 0 = method.buffer ↔ method.buffer (capacity.at 0) = 0 := by
    rw [Function.update_eq_self_iff]
    exact eq_comm
  constructor
  · intro same
    have elements := same.buffer
    rw [imported] at elements
    refine ⟨kept.mp elements,?_⟩
    by_contra differs
    rw [PredictsWhereImported,not_or,not_or] at differs
    obtain ⟨unfilled,noWrap,nonzero⟩ := differs
    refine nonzero fun count => (values_replicate_iff method.buffer count 0).mp ?_
    have predicts := same.predictions count
    rw [imported,predictions_of_unfilled count unfilled,predictions_of_filled count _ (lt_succ noWrap)] at predicts
    exact elements ▸ predicts
  · rintro ⟨zero,predicts⟩
    have elements := kept.mpr zero
    refine ⟨by rw [imported]; exact elements,fun count => ?_⟩
    rw [imported,elements]
    by_cases wraps : capacity.circular_buffersize + 1 = 0
    · rw [predictions_of_unfilled count (not_lt_of_wraps wraps _),predictions_of_unfilled count (not_lt_of_wraps wraps _)]
    · rw [predictions_of_filled count _ (lt_succ wraps)]
      by_cases filled : capacity.circular_buffersize < method.size
      · rw [predictions_of_filled count method filled,fromStart]
      · rw [predictions_of_unfilled count filled]
        exact (values_replicate_iff method.buffer count 0).mpr ((predicts.resolve_left filled).resolve_left wraps count)

/-- Three durations in a buffer of two elements: the last one is in the first element, and the file replaces
    it with a 0. -/
theorem first_element_lost : ¬ ∀ (capacity : Capacity) (durations : List Int64) (getValue : Values capacity),
    capacity.circular_buffersize.toNat ≤ durations.length → RoundTrip (recorded durations) getValue := by
  intro claimed
  have elements := (claimed ⟨2,by decide⟩ [5,7,9] ReplayCyclicBuffer.getValue (by decide)).buffer
  rw [importFromFile_exportToFile] at elements
  exact absurd (congrFun elements (Capacity.at _ 0)) (by decide)

end CyclicBufferBased

end Vexjine.MeasurementBuffers
