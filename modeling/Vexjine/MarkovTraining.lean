import Vexjine.Samples
import Vexjine.Loops
import Vexjine.Scans

/-!
# Training of the Markov process

The prediction by a Markov process sorts the measurements of the full buffer into states. A round of the training
splits the largest of the buckets so far into parts of equal width, moves the buckets that are not empty to the
front, and goes on while there are empty ones. Measurements are exact; `int` and `unsigned` have 32 bits.
-/

namespace Vexjine.MarkovTraining
open Assignments

def LLONG_MAX : ℤ := 2 ^ 63 - 1

/-- The conversion to `int`. -/
def int (value : ℤ) : ℤ := value.bmod (2 ^ 32)

/-- The conversion to `unsigned int`. -/
def unsigned (value : ℤ) : ℤ := value % 2 ^ 32

inductive Failure where
  | divisionByZero
  | outOfRange
  | unfinished
  deriving DecidableEq

structure MarkovModulatedProcess where
  buffer : ℕ → ℤ
  bucketOfElement : ℕ → ℤ
  bucketSizes : ℕ → UInt32

/-- The variables of the loop in `setStateLimits`. -/
structure Loop where
  process : MarkovModulatedProcess
  fullBuckets : ℕ
  nullBuckets : ℕ
  largestBucket : ℤ

/-- An index of `bucketSizes`. -/
def index (states : ℕ) (bucket : ℤ) : Except Failure ℕ :=
  if 0 ≤ bucket ∧ bucket < states then .ok bucket.toNat else .error .outOfRange

namespace MarkovModulatedProcess

variable (circular_buffersize states : ℕ) (process : MarkovModulatedProcess)

def init (buffer : ℕ → ℤ) : MarkovModulatedProcess := ⟨buffer,fun _ => -1,fun _ => 0⟩

/-- `bucketSizes[bucket] += change`. -/
def resize (bucket : ℕ) (change : UInt32) : MarkovModulatedProcess :=
  { process with bucketSizes := Function.update process.bucketSizes bucket (process.bucketSizes bucket + change) }

section Distribute

variable (bucketId : ℤ) (newBucketsToCreate : ℕ) (lowestBucketId : ℤ)

def min : ℤ :=
  Scans.least (fun i => bucketId = process.bucketOfElement i) process.buffer LLONG_MAX (List.range circular_buffersize)

def max : ℤ :=
  Scans.greatest process.buffer 0 ((List.range circular_buffersize).filter fun i => bucketId = process.bucketOfElement i)

def step : ℤ := (process.max circular_buffersize bucketId - process.min circular_buffersize bucketId).tdiv newBucketsToCreate

/-- Adds 0, 1, 2, ... to the elements of the bucket. -/
def differentiate : MarkovModulatedProcess × ℕ :=
  (List.range circular_buffersize).foldl (fun (process,addCount) i =>
    if bucketId = process.bucketOfElement i
    then ({ process with buffer := Function.update process.buffer i (process.buffer i + addCount) },addCount + 1)
    else (process,addCount)) (process,0)

/-- The bucket of an element in the distribution. -/
def target (min step : ℤ) (element : ℤ) : ℤ :=
  let bucket := int (lowestBucketId + (element - min).tdiv step)
  if unsigned (lowestBucketId + newBucketsToCreate - 1) ≤ unsigned bucket
  then int (lowestBucketId + newBucketsToCreate - 1) else bucket

def place (min step : ℤ) (i : ℕ) : Except Failure MarkovModulatedProcess :=
  if bucketId = process.bucketOfElement i then
    if step = 0 then .error .divisionByZero
    else
      let bucket := target newBucketsToCreate lowestBucketId min step (process.buffer i)
      let placed := { process with bucketOfElement := Function.update process.bucketOfElement i bucket }
      if lowestBucketId = 0 then do
        let added ← index states bucket
        .ok (placed.resize added 1)
      else if lowestBucketId ≠ bucket then do
        let added ← index states bucket
        let removed ← index states lowestBucketId
        .ok ((placed.resize added 1).resize removed (-1))
      else .ok placed
  else .ok process

def distributeAllInBucket : Except Failure MarkovModulatedProcess :=
  let min := process.min circular_buffersize bucketId
  let step := process.step circular_buffersize bucketId newBucketsToCreate
  let (process,step) := if step = 0
    then
      let (process,addCount) := process.differentiate circular_buffersize bucketId
      (process,(addCount : ℤ).tdiv newBucketsToCreate)
    else (process,step)
  (List.range circular_buffersize).foldlM
    (fun process i => process.place states bucketId newBucketsToCreate lowestBucketId min step i) process

end Distribute

/-- Bucket `j` becomes bucket `i`. -/
def move (j i : ℕ) : MarkovModulatedProcess :=
  { process with
    bucketOfElement := fun k => if process.bucketOfElement k - j = 0 then int i else process.bucketOfElement k
    bucketSizes := Function.update (Function.update process.bucketSizes i (process.bucketSizes j)) j 0 }

/-- The loop over `j`, down from the last bucket; `j` is an `int` and an index. -/
def fill (i : ℕ) : Except Failure MarkovModulatedProcess :=
  if process.bucketSizes i = 0 then
    match (List.range' (i + 1) (states - (i + 1))).reverse.find? fun j => 2 ^ 31 ≤ j ∨ process.bucketSizes j ≠ 0 with
    | none => .ok process
    | some j => if 2 ^ 31 ≤ j then .error .outOfRange else .ok (process.move j i)
  else .ok process

def compact : Except Failure MarkovModulatedProcess :=
  (List.range (states - 1)).foldlM (fun process i => process.fill states i) process

/-- The numbers of full and of empty buckets, and the largest one. -/
def count : Except Failure (ℕ × ℕ × ℤ) :=
  (List.range states).foldlM (fun (full,null,largest) i =>
    if process.bucketSizes i = 0 then .ok (full,null + 1,largest)
    else if largest = -1 then .ok (full + 1,null,int i)
    else do
      let bucket ← index states largest
      .ok (full + 1,null,if process.bucketSizes bucket < process.bucketSizes i then int i else largest)) (0,0,-1)

/-- The largest bucket and the last full one change places. -/
def exchange (fullBuckets : ℕ) (largestBucket : ℤ) : Except Failure MarkovModulatedProcess := do
  let largest ← index states largestBucket
  let last ← index states (unsigned (fullBuckets - 1))
  .ok { process with
    bucketOfElement := fun k =>
      if process.bucketOfElement k = largestBucket then int (unsigned (fullBuckets - 1))
      else if unsigned (process.bucketOfElement k) = unsigned (fullBuckets - 1) then largestBucket
      else process.bucketOfElement k
    bucketSizes := process.bucketSizes ∘ Equiv.swap largest last }

/-- A measurement of the state, for a random number. There is none when the assertion is reached. -/
def sampleMeasurementOfState (currentState : ℕ) (rand : ℕ) : Option ℤ :=
  if process.bucketSizes currentState = 0 then none
  else
    (((List.range circular_buffersize).filter fun k => process.bucketOfElement k = currentState)[rand %
      (process.bucketSizes currentState).toNat]?).map process.buffer

end MarkovModulatedProcess

namespace Loop

variable (circular_buffersize states : ℕ) (loop : Loop)

def start (buffer : ℕ → ℤ) : Loop := ⟨.init buffer,1,states - 1,-1⟩

/-- The body of the loop, up to the test of `nullBuckets`. -/
def body : Except Failure Loop := do
  let distributed ← loop.process.distributeAllInBucket circular_buffersize states loop.largestBucket
    (loop.nullBuckets + 1) (int (unsigned (loop.fullBuckets - 1)))
  let compacted ← distributed.compact states
  let (full,null,largest) ← compacted.count states
  if null = 0 then .ok ⟨compacted,full,null,largest⟩
  else do
    let exchanged ← compacted.exchange states full largest
    .ok ⟨exchanged,full,null,int (unsigned (full - 1))⟩

/-- The loop, for at most the given number of rounds. -/
def run : ℕ → Loop → Except Failure MarkovModulatedProcess
  | 0, _ => .error .unfinished
  | rounds + 1, loop => do
    let next ← loop.body circular_buffersize states
    if next.nullBuckets = 0 then .ok next.process else run rounds next

end Loop

def setStateLimits (circular_buffersize states rounds : ℕ) (buffer : ℕ → ℤ) : Except Failure MarkovModulatedProcess :=
  (Loop.start states buffer).run circular_buffersize states rounds

/-- The loop is at its head with the variables `loop` at some time, when it starts with the first ones. -/
inductive Reaches (circular_buffersize states : ℕ) : Loop → Loop → Prop where
  | here (loop : Loop) : Reaches circular_buffersize states loop loop
  | round {loop next later : Loop} (stepped : loop.body circular_buffersize states = .ok next)
      (again : next.nullBuckets ≠ 0) (reaches : Reaches circular_buffersize states next later) :
      Reaches circular_buffersize states loop later

/-- The bucket that is split is as wide as it gets parts. -/
def Loop.Divisible (circular_buffersize : ℕ) (loop : Loop) : Prop :=
  loop.process.step circular_buffersize loop.largestBucket (loop.nullBuckets + 1) ≠ 0

instance (circular_buffersize : ℕ) (loop : Loop) : Decidable (loop.Divisible circular_buffersize) :=
  inferInstanceAs (Decidable (_ ≠ (0 : ℤ)))

/-- The training ends without a division by 0 or an index outside the buckets, every bucket has elements and knows
    their number, a sample of a state is one of its measurements, and the measurements are what they were. -/
def Faithful (circular_buffersize states : ℕ) (buffer : ℕ → ℤ) : Prop :=
  ∃ rounds process, setStateLimits circular_buffersize states rounds buffer = .ok process ∧
    (∀ state < states, ∃ k < circular_buffersize, process.bucketOfElement k = state) ∧
    (∀ state < states, (process.bucketSizes state).toNat =
      Assignments.count circular_buffersize process.bucketOfElement state) ∧
    (∀ state < states, ∀ rand, ∃ k < circular_buffersize, process.bucketOfElement k = state ∧
      process.sampleMeasurementOfState circular_buffersize state rand = some (buffer k)) ∧
    ∀ k < circular_buffersize, process.buffer k = buffer k

/-- Every bucket knows the number of its elements. -/
def Counted (circular_buffersize states : ℕ) (bucketOfElement : ℕ → ℤ) (bucketSizes : ℕ → UInt32) : Prop :=
  ∀ bucket < states, bucketSizes bucket = UInt32.ofNat (Assignments.count circular_buffersize bucketOfElement bucket)

section Counted

variable {circular_buffersize states : ℕ} {bucketOfElement : ℕ → ℤ} {bucketSizes : ℕ → UInt32} {i bucket lowest : ℕ}

theorem toNat_size (representable : circular_buffersize < 2 ^ 32)
    (counted : Counted circular_buffersize states bucketOfElement bucketSizes) (inside : bucket < states) :
    (bucketSizes bucket).toNat = Assignments.count circular_buffersize bucketOfElement bucket := by
  have fits := (Assignments.count_le circular_buffersize bucketOfElement (bucket : ℤ)).trans_lt representable
  rw [counted bucket inside,UInt32.toNat_ofNat_of_lt' fits]

theorem size_ne_zero_iff (representable : circular_buffersize < 2 ^ 32)
    (counted : Counted circular_buffersize states bucketOfElement bucketSizes) (inside : bucket < states) :
    bucketSizes bucket ≠ 0 ↔ ∃ k < circular_buffersize, bucketOfElement k = bucket := by
  rw [← count_pos_iff,← toNat_size representable counted inside,Nat.pos_iff_ne_zero,ne_eq,ne_eq,← UInt32.toNat_inj]
  rfl

/-- An element that was in no counted bucket is counted in its new one. -/
private theorem counted_new (counted : Counted circular_buffersize states bucketOfElement bucketSizes)
    (element : i < circular_buffersize) (uncounted : bucketOfElement i < 0) :
    Counted circular_buffersize states (Function.update bucketOfElement i bucket)
      (Function.update bucketSizes bucket (bucketSizes bucket + 1)) := by
  intro other inside
  rcases eq_or_ne other bucket with rfl | different
  · rw [Function.update_self,count_update_new element (by omega),UInt32.ofNat_add,counted other inside]
    rfl
  · rw [Function.update_of_ne different,counted other inside,count_update_of_ne (by omega) (by omega)]

/-- An element that leaves its bucket for another one is counted there. -/
private theorem counted_moved (counted : Counted circular_buffersize states bucketOfElement bucketSizes)
    (element : i < circular_buffersize) (inLowest : bucketOfElement i = lowest) (left : lowest ≠ bucket) :
    Counted circular_buffersize states (Function.update bucketOfElement i bucket)
      (Function.update (Function.update bucketSizes bucket (bucketSizes bucket + 1)) lowest
        (Function.update bucketSizes bucket (bucketSizes bucket + 1) lowest + -1)) := by
  intro other inside
  have old : Assignments.count circular_buffersize (Function.update bucketOfElement i bucket) (bucketOfElement i) + 1 =
      Assignments.count circular_buffersize bucketOfElement (bucketOfElement i) := count_update_old element (by omega)
  rw [inLowest] at old
  rcases eq_or_ne other lowest with rfl | notLowest
  · rw [Function.update_self,Function.update_of_ne left,counted other inside,← old,UInt32.ofNat_add]
    rw [← UInt32.sub_eq_add_neg]
    exact UInt32.add_sub_cancel _ _
  · rw [Function.update_of_ne notLowest]
    rcases eq_or_ne other bucket with rfl | different
    · rw [Function.update_self,count_update_new element (by omega),UInt32.ofNat_add,counted other inside]
      rfl
    · rw [Function.update_of_ne different,counted other inside,count_update_of_ne (by omega) (by omega)]

end Counted

namespace MarkovModulatedProcess

variable {circular_buffersize states : ℕ} {process : MarkovModulatedProcess}

theorem index_ofNat {bucket : ℕ} (inside : bucket < states) : index states bucket = .ok bucket := by
  rw [index,if_pos ⟨Int.natCast_nonneg bucket,Int.ofNat_lt.mpr inside⟩,Int.toNat_natCast]

/-- The elements to split are in no bucket yet, or in the lowest of the new ones. -/
def Splits (bucketId : ℤ) (lowest : ℕ) : Prop := (bucketId = -1 ∧ lowest = 0) ∨ (bucketId = lowest ∧ 0 < lowest)

private theorem place_spec {bucketId : ℤ} {newBucketsToCreate lowest i bucket : ℕ} {min step : ℤ}
    (counted : Counted circular_buffersize states process.bucketOfElement process.bucketSizes)
    (splits : Splits bucketId lowest) (available : lowest < states) (element : i < circular_buffersize) (chosen : bucketId = process.bucketOfElement i)
    (nonzero : step ≠ 0) (into : target newBucketsToCreate lowest min step (process.buffer i) = bucket)
    (inside : bucket < states) :
    ∃ placed, process.place states bucketId newBucketsToCreate lowest min step i = .ok placed ∧
      placed.buffer = process.buffer ∧
      placed.bucketOfElement = Function.update process.bucketOfElement i bucket ∧
      Counted circular_buffersize states placed.bucketOfElement placed.bucketSizes := by
  rw [place,if_pos chosen,if_neg nonzero]
  simp only [into]
  rcases splits with ⟨unassigned,rfl⟩ | ⟨inLowest,positive⟩
  · rw [if_pos (by rfl),index_ofNat inside]
    exact ⟨_,rfl,rfl,rfl,counted_new counted element (by omega)⟩
  · rw [if_neg (by omega)]
    by_cases left : (lowest : ℤ) ≠ bucket
    · rw [if_pos left,index_ofNat inside,index_ofNat available]
      exact ⟨_,rfl,rfl,rfl,counted_moved counted element (by omega) (by omega)⟩
    · rw [if_neg left]
      refine ⟨_,rfl,rfl,rfl,?_⟩
      have same : Function.update process.bucketOfElement i (bucket : ℤ) = process.bucketOfElement :=
        Function.update_eq_self_iff.mpr (by omega)
      rw [same]
      exact counted

/-- The least and the greatest measurement of the bucket. -/
theorem extremes {bucketId : ℤ}
    (measured : ∀ k < circular_buffersize, 0 ≤ process.buffer k ∧ process.buffer k ≤ LLONG_MAX)
    (nonempty : ∃ k < circular_buffersize, bucketId = process.bucketOfElement k) :
    (∃ k < circular_buffersize, bucketId = process.bucketOfElement k ∧
      process.buffer k = process.min circular_buffersize bucketId) ∧
    (∃ k < circular_buffersize, bucketId = process.bucketOfElement k ∧
      process.buffer k = process.max circular_buffersize bucketId) ∧
    ∀ k < circular_buffersize, bucketId = process.bucketOfElement k →
      process.min circular_buffersize bucketId ≤ process.buffer k ∧
      process.buffer k ≤ process.max circular_buffersize bucketId := by
  obtain ⟨witness,exists_inside,exists_chosen⟩ := nonempty
  have bounds : ∀ k < circular_buffersize, bucketId = process.bucketOfElement k →
      process.min circular_buffersize bucketId ≤ process.buffer k ∧
      process.buffer k ≤ process.max circular_buffersize bucketId := fun k inside chosen =>
    ⟨Scans.least_le _ _ (List.mem_range.mpr inside) (by simpa using chosen),
      ((Scans.greatest_le_iff _ _ _ _).mp le_rfl).2 k (by simp [inside,chosen])⟩
  have found := bounds witness exists_inside exists_chosen
  have values := measured witness exists_inside
  refine ⟨?_,?_,bounds⟩
  · rcases Scans.least_attained (fun i => bucketId = process.bucketOfElement i) process.buffer LLONG_MAX
      (List.range circular_buffersize) with ceiling | ⟨k,member,chosen,reached⟩
    · change process.min circular_buffersize bucketId = LLONG_MAX at ceiling
      exact ⟨witness,exists_inside,exists_chosen,by omega⟩
    · exact ⟨k,List.mem_range.mp member,by simpa using chosen,reached⟩
  · rcases Scans.greatest_attained process.buffer 0
      ((List.range circular_buffersize).filter fun i => bucketId = process.bucketOfElement i) with zero | ⟨k,member,reached⟩
    · change process.max circular_buffersize bucketId = 0 at zero
      exact ⟨witness,exists_inside,exists_chosen,by omega⟩
    · obtain ⟨inside,chosen⟩ := List.mem_filter.mp member
      exact ⟨k,List.mem_range.mp inside,by simpa using chosen,reached⟩

theorem int_eq {value : ℤ} (lower : -2 ^ 31 ≤ value) (upper : value < 2 ^ 31) : int value = value :=
  Int.bmod_eq_of_le (by norm_num at lower ⊢; exact lower) (by norm_num at upper ⊢; exact upper)

private theorem unsigned_int {value : ℤ} (lower : 0 ≤ value) (upper : value < 2 ^ 32) : unsigned (int value) = value := by
  change value.bmod (2 ^ 32) % ((2 ^ 32 : ℕ) : ℤ) = value
  rw [Int.bmod_emod]
  exact Int.emod_eq_of_lt lower upper

/-- Measurements from the last part on are put into the last bucket. -/
theorem target_eq {newBucketsToCreate lowest : ℕ} {min step element : ℤ}
    (small : lowest + newBucketsToCreate ≤ 2 ^ 31) (several : 1 ≤ newBucketsToCreate) (low : min ≤ element) (positive : 0 < step)
    (high : element - min < step * (2 * newBucketsToCreate)) :
    target newBucketsToCreate lowest min step element =
      (lowest + ((element - min) / step).toNat ⊓ (newBucketsToCreate - 1) : ℕ) := by
  have nonneg : 0 ≤ (element - min) / step := Int.ediv_nonneg (by omega) positive.le
  have bounded : (element - min) / step < 2 * newBucketsToCreate := Int.ediv_lt_of_lt_mul positive (by linarith)
  rw [target,Int.tdiv_eq_ediv_of_nonneg (by omega)]
  generalize (element - min) / step = part at nonneg bounded ⊢
  rw [unsigned_int (by omega) (by omega),unsigned,Int.emod_eq_of_lt (by omega) (by omega)]
  split
  · rw [int_eq (by omega) (by omega)]
    omega
  · rw [int_eq (by omega) (by omega)]
    omega

/-- The parts are as wide as the step: the least measurement is in the lowest bucket and the greatest in the last. -/
private theorem targets {bucketId : ℤ} {newBucketsToCreate lowest : ℕ}
    (parts : lowest + newBucketsToCreate = states) (several : 2 ≤ newBucketsToCreate) (small : states ≤ 2 ^ 31)
    (measured : ∀ k < circular_buffersize, 0 ≤ process.buffer k ∧ process.buffer k ≤ LLONG_MAX)
    (nonempty : ∃ k < circular_buffersize, bucketId = process.bucketOfElement k)
    (divisible : process.step circular_buffersize bucketId newBucketsToCreate ≠ 0) :
    let bucket := fun k => target newBucketsToCreate lowest (process.min circular_buffersize bucketId)
      (process.step circular_buffersize bucketId newBucketsToCreate) (process.buffer k)
    (∀ k < circular_buffersize, bucketId = process.bucketOfElement k →
      ∃ number : ℕ, lowest ≤ number ∧ number < states ∧ bucket k = number) ∧
    (∃ k < circular_buffersize, bucketId = process.bucketOfElement k ∧ bucket k = lowest) ∧
    ∃ k < circular_buffersize, bucketId = process.bucketOfElement k ∧ bucket k = (states - 1 : ℕ) := by
  intro bucket
  obtain ⟨⟨least,leastInside,leastChosen,leastValue⟩,⟨greatest,greatestInside,greatestChosen,greatestValue⟩,bounds⟩ :=
    extremes measured nonempty
  have ordered := (bounds least leastInside leastChosen).2
  have quotient : process.step circular_buffersize bucketId newBucketsToCreate =
      (process.max circular_buffersize bucketId - process.min circular_buffersize bucketId) / newBucketsToCreate :=
    Int.tdiv_eq_ediv_of_nonneg (by omega)
  have positive : 0 < process.step circular_buffersize bucketId newBucketsToCreate := by
    have nonneg : 0 ≤ process.step circular_buffersize bucketId newBucketsToCreate := by
      rw [quotient]
      exact Int.ediv_nonneg (by omega) (Int.natCast_nonneg _)
    omega
  have below := Int.lt_ediv_add_one_mul_self
    (process.max circular_buffersize bucketId - process.min circular_buffersize bucketId)
    (show (0 : ℤ) < newBucketsToCreate by omega)
  have above := Int.ediv_mul_le (process.max circular_buffersize bucketId - process.min circular_buffersize bucketId)
    (show (newBucketsToCreate : ℤ) ≠ 0 by omega)
  rw [← quotient] at below above
  have narrow : process.max circular_buffersize bucketId - process.min circular_buffersize bucketId <
      process.step circular_buffersize bucketId newBucketsToCreate * (2 * newBucketsToCreate) := by nlinarith
  have value : ∀ k < circular_buffersize, bucketId = process.bucketOfElement k → bucket k =
      (lowest + ((process.buffer k - process.min circular_buffersize bucketId) /
        process.step circular_buffersize bucketId newBucketsToCreate).toNat ⊓ (newBucketsToCreate - 1) : ℕ) :=
    fun k inside chosen => target_eq (by omega) (by omega) (bounds k inside chosen).1 positive
      (by linarith only [narrow,(bounds k inside chosen).2])
  refine ⟨fun k inside chosen => ⟨_,by omega,by omega,value k inside chosen⟩,⟨least,leastInside,leastChosen,?_⟩,
    greatest,greatestInside,greatestChosen,?_⟩
  · rw [value least leastInside leastChosen,leastValue]
    simp
  · have enough : (newBucketsToCreate : ℤ) ≤
        (process.max circular_buffersize bucketId - process.min circular_buffersize bucketId) /
          process.step circular_buffersize bucketId newBucketsToCreate :=
      (Int.le_ediv_iff_mul_le positive).mpr (by linarith only [above])
    rw [value greatest greatestInside greatestChosen,greatestValue]
    congr 1
    omega

/-- The bucket is split into the lowest and the last of the new buckets, and perhaps others between them. -/
theorem distributeAllInBucket_spec {bucketId : ℤ} {newBucketsToCreate lowest : ℕ}
    (counted : Counted circular_buffersize states process.bucketOfElement process.bucketSizes)
    (splits : Splits bucketId lowest) (parts : lowest + newBucketsToCreate = states) (several : 2 ≤ newBucketsToCreate)
    (small : states ≤ 2 ^ 31)
    (measured : ∀ k < circular_buffersize, 0 ≤ process.buffer k ∧ process.buffer k ≤ LLONG_MAX)
    (nonempty : ∃ k < circular_buffersize, bucketId = process.bucketOfElement k)
    (divisible : process.step circular_buffersize bucketId newBucketsToCreate ≠ 0) :
    ∃ distributed, process.distributeAllInBucket circular_buffersize states bucketId newBucketsToCreate lowest =
        .ok distributed ∧
      distributed.buffer = process.buffer ∧
      Counted circular_buffersize states distributed.bucketOfElement distributed.bucketSizes ∧
      (∀ k < circular_buffersize, bucketId ≠ process.bucketOfElement k →
        distributed.bucketOfElement k = process.bucketOfElement k) ∧
      (∀ k < circular_buffersize, bucketId = process.bucketOfElement k →
        ∃ number : ℕ, lowest ≤ number ∧ number < states ∧ distributed.bucketOfElement k = number ∧
          target newBucketsToCreate lowest (process.min circular_buffersize bucketId)
            (process.step circular_buffersize bucketId newBucketsToCreate) (process.buffer k) = number) ∧
      (∃ k < circular_buffersize, distributed.bucketOfElement k = lowest) ∧
      ∃ k < circular_buffersize, distributed.bucketOfElement k = (states - 1 : ℕ) := by
  obtain ⟨inRange,first,last⟩ := targets parts several small measured nonempty divisible
  let bucket := fun k => target newBucketsToCreate lowest (process.min circular_buffersize bucketId)
    (process.step circular_buffersize bucketId newBucketsToCreate) (process.buffer k)
  let assigned := fun n k => if k < n ∧ bucketId = process.bucketOfElement k then bucket k else process.bucketOfElement k
  have placed := FallibleLoops.total
    (fun process' i => process'.place states bucketId newBucketsToCreate lowest
      (process.min circular_buffersize bucketId) (process.step circular_buffersize bucketId newBucketsToCreate) i)
    (fun n process' => process'.buffer = process.buffer ∧ process'.bucketOfElement = assigned n ∧
      Counted circular_buffersize states process'.bucketOfElement process'.bucketSizes) circular_buffersize process
    ⟨rfl,by funext k; simp [assigned],counted⟩ fun i inside process' holds => by
      obtain ⟨sameBuffer,sameBuckets,counted'⟩ := holds
      have untouched : process'.bucketOfElement i = process.bucketOfElement i := by simp [sameBuckets,assigned]
      by_cases chosen : bucketId = process.bucketOfElement i
      · obtain ⟨number,-,available,into⟩ := inRange i inside chosen
        obtain ⟨next,done,bufferKept,reassigned,countedNext⟩ := place_spec counted' splits (by omega) inside
          (chosen.trans untouched.symm) divisible (by rw [sameBuffer]; exact into) available
        refine ⟨next,done,bufferKept.trans sameBuffer,?_,countedNext⟩
        rw [reassigned,sameBuckets]
        funext k
        rcases eq_or_ne k i with rfl | different
        · rw [Function.update_self]
          exact into.symm.trans (if_pos ⟨Nat.lt_succ_self k,chosen⟩).symm
        · rw [Function.update_of_ne different]
          have after : k < i + 1 ↔ k < i := by omega
          simp only [assigned,after]
      · refine ⟨process',?_,sameBuffer,?_,counted'⟩
        · rw [place,if_neg (untouched ▸ chosen)]
        · rw [sameBuckets]
          funext k
          rcases eq_or_ne k i with rfl | different
          · simp [assigned,chosen]
          · have after : k < i + 1 ↔ k < i := by omega
            simp only [assigned,after]
  obtain ⟨distributed,done,bufferKept,buckets,countedAtEnd⟩ := placed
  have moved : ∀ k < circular_buffersize, bucketId = process.bucketOfElement k → distributed.bucketOfElement k = bucket k :=
    fun k inside chosen => by rw [buckets]; exact if_pos ⟨inside,chosen⟩
  refine ⟨distributed,?_,bufferKept,countedAtEnd,fun k _ others => ?_,fun k inside chosen => ?_,?_,?_⟩
  · rw [distributeAllInBucket]
    simp only [if_neg divisible]
    exact done
  · rw [buckets]
    exact if_neg fun both => others both.2
  · obtain ⟨number,above,available,into⟩ := inRange k inside chosen
    exact ⟨number,above,available,(moved k inside chosen).trans into,into⟩
  · obtain ⟨k,inside,chosen,value⟩ := first
    exact ⟨k,inside,(moved k inside chosen).trans value⟩
  · obtain ⟨k,inside,chosen,value⟩ := last
    exact ⟨k,inside,(moved k inside chosen).trans value⟩

/-- Every element is in one of the buckets, which know their numbers. -/
structure Partition (circular_buffersize states : ℕ) (process : MarkovModulatedProcess) : Prop where
  counted : Counted circular_buffersize states process.bucketOfElement process.bucketSizes
  assigned : ∀ k < circular_buffersize, 0 ≤ process.bucketOfElement k ∧ process.bucketOfElement k < states

def full (buckets : ℕ) (process : MarkovModulatedProcess) : Finset ℕ :=
  (Finset.range buckets).filter fun bucket => process.bucketSizes bucket ≠ 0

theorem mem_full {buckets bucket : ℕ} :
    bucket ∈ process.full buckets ↔ bucket < buckets ∧ process.bucketSizes bucket ≠ 0 := by
  rw [full,Finset.mem_filter,Finset.mem_range]

/-- Two buckets change their numbers. -/
private theorem exchanged {first second : ℕ} {after : MarkovModulatedProcess}
    (partition : process.Partition circular_buffersize states) (firstInside : first < states) (secondInside : second < states)
    (buckets : ∀ k < circular_buffersize,
      after.bucketOfElement k = Equiv.swap (first : ℤ) second (process.bucketOfElement k))
    (sizes : after.bucketSizes = process.bucketSizes ∘ Equiv.swap first second) :
    after.Partition circular_buffersize states ∧ (after.full states).card = (process.full states).card := by
  have inside : ∀ bucket, Equiv.swap first second bucket < states ↔ bucket < states := fun bucket => by
    rw [Equiv.swap_apply_def]
    split_ifs <;> omega
  refine ⟨⟨fun bucket available => ?_,fun k element => ?_⟩,?_⟩
  · have counted := partition.counted _ ((inside bucket).mpr available)
    have renumbered : Assignments.count circular_buffersize after.bucketOfElement
        (Equiv.swap (first : ℤ) second (Equiv.swap first second bucket : ℕ)) =
          Assignments.count circular_buffersize process.bucketOfElement (Equiv.swap first second bucket : ℕ) :=
      count_rename (Equiv.swap (first : ℤ) second).injective buckets
    rw [← Nat.cast_injective.swap_apply,Equiv.swap_apply_self] at renumbered
    rw [sizes,Function.comp_apply,counted,renumbered,← Nat.cast_injective.swap_apply]
  · have known := partition.assigned k element
    rw [buckets k element,Equiv.swap_apply_def]
    split_ifs <;> omega
  · refine Finset.card_equiv (Equiv.swap first second) fun bucket => ?_
    rw [mem_full,mem_full,inside,sizes,Function.comp_apply]

/-- Behind the buckets before `count` that are empty there are only empty ones. -/
def Packed (count states : ℕ) (process : MarkovModulatedProcess) : Prop :=
  ∀ first < count, process.bucketSizes first = 0 → ∀ later, first < later → later < states → process.bucketSizes later = 0

private theorem fill_spec {i : ℕ} (representable : circular_buffersize < 2 ^ 32) (small : states ≤ 2 ^ 31)
    (partition : process.Partition circular_buffersize states) (packed : process.Packed i states) (available : i < states) :
    ∃ filled, process.fill states i = .ok filled ∧ filled.buffer = process.buffer ∧
      filled.Partition circular_buffersize states ∧ (filled.full states).card = (process.full states).card ∧
      filled.Packed (i + 1) states := by
  rw [fill]
  by_cases empty : process.bucketSizes i = 0
  · rw [if_pos empty]
    cases searched : (List.range' (i + 1) (states - (i + 1))).reverse.find?
      fun j => 2 ^ 31 ≤ j ∨ process.bucketSizes j ≠ 0 with
    | none =>
      refine ⟨process,rfl,rfl,partition,rfl,fun first before isEmpty later behind inside => ?_⟩
      rcases Nat.lt_succ_iff_lt_or_eq.mp before with earlier | rfl
      · exact packed first earlier isEmpty later behind inside
      · have rejected := List.find?_eq_none.mp searched later (by simp; omega)
        exact not_not.mp fun nonempty => rejected (decide_eq_true (.inr nonempty))
    | some j =>
      have found := List.find?_some searched
      have member := List.mem_of_find?_eq_some searched
      simp only [List.mem_reverse,List.mem_range'_1] at member
      have nonempty : process.bucketSizes j ≠ 0 := (of_decide_eq_true found).resolve_left (by omega)
      simp only [if_neg (show ¬2 ^ 31 ≤ j by omega)]
      have unused : ∀ k < circular_buffersize, process.bucketOfElement k ≠ i := fun k inside assigned =>
        (size_ne_zero_iff representable partition.counted available).mpr ⟨k,inside,assigned⟩ empty
      have sizes : (process.move j i).bucketSizes = process.bucketSizes ∘ Equiv.swap i j := by
        funext bucket
        change Function.update (Function.update process.bucketSizes i (process.bucketSizes j)) j 0 bucket = _
        rw [Function.comp_apply,Equiv.swap_apply_def]
        rcases eq_or_ne bucket j with rfl | notJ
        · rw [Function.update_self,if_neg (by omega),if_pos rfl,empty]
        · rw [Function.update_of_ne notJ,if_neg (show ¬bucket = j from notJ)]
          rcases eq_or_ne bucket i with rfl | notI
          · rw [Function.update_self,if_pos rfl]
          · rw [Function.update_of_ne notI,if_neg notI]
      have renamed : (process.move j i).Partition circular_buffersize states ∧
          ((process.move j i).full states).card = (process.full states).card :=
        exchanged partition available (show j < states by omega) (fun k inside => by
          change (if process.bucketOfElement k - j = 0 then int i else process.bucketOfElement k) = _
          rw [Equiv.swap_apply_def,if_neg (unused k inside),int_eq (by omega) (by omega)]
          exact if_congr (by omega) rfl rfl) sizes
      refine ⟨_,rfl,rfl,renamed.1,renamed.2,fun first before isEmpty later behind inside => ?_⟩
      rw [sizes,Function.comp_apply] at isEmpty
      rcases Nat.lt_succ_iff_lt_or_eq.mp before with earlier | rfl
      · rw [Equiv.swap_apply_of_ne_of_ne (by omega) (by omega)] at isEmpty
        exact absurd (packed first earlier isEmpty j (by omega) (by omega)) nonempty
      · rw [Equiv.swap_apply_left] at isEmpty
        exact absurd isEmpty nonempty
  · rw [if_neg empty]
    refine ⟨process,rfl,rfl,partition,rfl,fun first before isEmpty => ?_⟩
    rcases Nat.lt_succ_iff_lt_or_eq.mp before with earlier | rfl
    · exact packed first earlier isEmpty
    · exact absurd isEmpty empty

/-- The buckets with elements come first. -/
theorem compact_spec (representable : circular_buffersize < 2 ^ 32) (small : states ≤ 2 ^ 31)
    (partition : process.Partition circular_buffersize states) :
    ∃ compacted, process.compact states = .ok compacted ∧ compacted.buffer = process.buffer ∧
      compacted.Partition circular_buffersize states ∧
      compacted.full states = Finset.range (process.full states).card := by
  obtain ⟨compacted,done,kept,partitionAtEnd,sameNumber,packed⟩ :=
    FallibleLoops.total (fun process i => process.fill states i)
      (fun n process' => process'.buffer = process.buffer ∧ process'.Partition circular_buffersize states ∧
        (process'.full states).card = (process.full states).card ∧ process'.Packed n states) (states - 1) process
      ⟨rfl,partition,rfl,fun _ before => absurd before (Nat.not_lt_zero _)⟩ fun i inside process' holds => by
        obtain ⟨kept,partition',sameNumber,packed⟩ := holds
        obtain ⟨filled,done,keptAgain,partitionNext,sameAgain,packedNext⟩ :=
          fill_spec representable small partition' packed (by omega)
        exact ⟨filled,done,keptAgain.trans kept,partitionNext,sameAgain.trans sameNumber,packedNext⟩
  refine ⟨compacted,done,kept,partitionAtEnd,?_⟩
  rw [← sameNumber]
  refine eq_range_card fun last member first before => ?_
  obtain ⟨inside,nonempty⟩ := mem_full.mp member
  exact mem_full.mpr ⟨before.trans inside,fun empty => nonempty (packed first (by omega) empty last before inside)⟩

/-- The loop counts the full and the empty buckets and finds a full one, if there is any. -/
theorem count_spec (process : MarkovModulatedProcess) (small : states ≤ 2 ^ 31) :
    ∃ null largest, process.count states = .ok ((process.full states).card,null,largest) ∧
      (process.full states).card + null = states ∧
      ((process.full states).card ≠ 0 → ∃ bucket ∈ process.full states, largest = (bucket : ℤ)) := by
  have loop := FallibleLoops.total
    (fun ((full,null,largest) : ℕ × ℕ × ℤ) i =>
      if process.bucketSizes i = 0 then .ok (full,null + 1,largest)
      else if largest = -1 then .ok (full + 1,null,int i)
      else do
        let bucket ← index states largest
        .ok (full + 1,null,if process.bucketSizes bucket < process.bucketSizes i then int i else largest))
    (fun n found => found.1 = (process.full n).card ∧ found.1 + found.2.1 = n ∧
      (found.2.2 = -1 ∧ found.1 = 0 ∨ ∃ bucket ∈ process.full n, found.2.2 = (bucket : ℤ)))
    states (0,0,-1) ⟨by simp [full],rfl,.inl ⟨rfl,rfl⟩⟩ fun i inside (filled,null,largest) holds => by
      obtain ⟨number,together,known⟩ := holds
      dsimp only at number together known
      have later : ∀ bucket ∈ process.full i, bucket ∈ process.full (i + 1) := fun bucket member =>
        mem_full.mpr ⟨(mem_full.mp member).1.trans (Nat.lt_succ_self i),(mem_full.mp member).2⟩
      by_cases empty : process.bucketSizes i = 0
      · have same : process.full (i + 1) = process.full i := by
          rw [full,Finset.range_add_one,Finset.filter_insert,if_neg (not_not.mpr empty),full]
        refine ⟨(filled,null + 1,largest),if_pos empty,?_,?_,?_⟩
        · rw [same]
          exact number
        · dsimp only
          omega
        · rw [same]
          exact known
      · have more : (process.full (i + 1)).card = filled + 1 := by
          rw [full,Finset.range_add_one,Finset.filter_insert,if_pos empty,Finset.card_insert_of_notMem (by simp),number,full]
        have itself : ∃ bucket ∈ process.full (i + 1), int i = (bucket : ℤ) :=
          ⟨i,mem_full.mpr ⟨Nat.lt_succ_self i,empty⟩,int_eq (by omega) (by omega)⟩
        have counts : filled + 1 + null = i + 1 := by omega
        rcases known with ⟨rfl,-⟩ | ⟨bucket,member,rfl⟩
        · refine ⟨(filled + 1,null,int i),?_,more.symm,counts,.inr ?_⟩
          · simp only [if_neg empty,if_true]
          · dsimp only
            exact itself
        · have available := (mem_full.mp member).1
          refine ⟨(filled + 1,null,if process.bucketSizes bucket < process.bucketSizes i then int i else bucket),?_,
            more.symm,counts,.inr ?_⟩
          · simp only [if_neg empty,if_neg (show ¬(bucket : ℤ) = -1 by omega),index_ofNat (show bucket < states by omega)]
            rfl
          · dsimp only
            split
            · exact itself
            · exact ⟨bucket,later bucket member,rfl⟩
  obtain ⟨⟨filled,null,largest⟩,done,rfl,together,known⟩ := loop
  refine ⟨null,largest,done,together,fun nonzero => ?_⟩
  exact known.resolve_left fun none => nonzero none.2

/-- The largest bucket becomes the last full one. -/
theorem exchange_spec {fullBuckets largest : ℕ} (small : states ≤ 2 ^ 31)
    (partition : process.Partition circular_buffersize states) (filled : process.full states = Finset.range fullBuckets)
    (inside : largest < fullBuckets) (available : fullBuckets ≤ states) :
    ∃ exchanged, process.exchange states fullBuckets largest = .ok exchanged ∧ exchanged.buffer = process.buffer ∧
      exchanged.Partition circular_buffersize states ∧ exchanged.full states = Finset.range fullBuckets := by
  have last : unsigned ((fullBuckets : ℤ) - 1) = (fullBuckets - 1 : ℕ) := by
    rw [unsigned,Int.emod_eq_of_lt (by omega) (by omega)]
    omega
  rw [exchange,last,index_ofNat (by omega),index_ofNat (by omega)]
  refine ⟨_,rfl,rfl,And.left (exchanged partition (show largest < states by omega)
    (show fullBuckets - 1 < states by omega) (fun k element => ?_) rfl),?_⟩
  · have known := partition.assigned k element
    change (if process.bucketOfElement k = largest then int ((fullBuckets - 1 : ℕ) : ℤ)
      else if unsigned (process.bucketOfElement k) = (fullBuckets - 1 : ℕ) then (largest : ℤ)
      else process.bucketOfElement k) = _
    rw [int_eq (by omega) (by omega),unsigned,Int.emod_eq_of_lt known.1 (by omega),Equiv.swap_apply_def]
  · ext bucket
    have swapped : Equiv.swap largest (fullBuckets - 1) bucket < fullBuckets ↔ bucket < fullBuckets := by
      rw [Equiv.swap_apply_def]
      split_ifs <;> omega
    have member := Finset.ext_iff.mp filled (Equiv.swap largest (fullBuckets - 1) bucket)
    rw [mem_full,Finset.mem_range,swapped] at member
    rw [mem_full,Finset.mem_range,← member]
    change bucket < states ∧ process.bucketSizes (Equiv.swap largest (fullBuckets - 1) bucket) ≠ 0 ↔ _
    refine and_congr_left fun _ => ?_
    rw [Equiv.swap_apply_def]
    split_ifs <;> omega

end MarkovModulatedProcess
end Vexjine.MarkovTraining
