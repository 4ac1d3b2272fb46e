import Vexjine.Runs
import Vexjine.ThreadTimers

/-!
# The time of a simulated model

A scheduler simulates the model of a thread in timeslots. A local service is consumed
slot by slot, a remote service is a timed wait; both take the demand that the node's
sampler returned. The samplers may return negative demands, which make the thread's
time go back, and a remote demand is added to the time as a `float`, which may lose more
than it adds. The demands that keep the time monotone are exactly characterised.
-/

namespace Vexjine.ModelTime
open Vexjine.VirtualTimeline Vexjine.ThreadTimers Vexjine.Runs Vexjine.Floats
set_option linter.unusedSectionVars false

abbrev LongLong := {value : Int // -2 ^ 63 ≤ value ∧ value ≤ LLONG_MAX}

/-- A thread's time outside its model. -/
abbrev VirtualTime := {time : Int // 0 ≤ time ∧ time ≤ LLONG_MAX}

/-- The time a scheduler simulates at once. -/
abbrev Timeslot := {time : Int // 0 < time}

/-- The positive factors of a thread's durations. -/
structure Scaling where
  virtualTimeSpeedup : ℚ
  globalScalingFactor : ℚ
  virtualTimeSpeedup_pos : 0 < virtualTimeSpeedup
  globalScalingFactor_pos : 0 < globalScalingFactor

/-- The factors of a thread whose time runs as usual. -/
def Scaling.unscaled : Scaling := ⟨1,1,one_pos,one_pos⟩

def Scaling.scaled (scaling : Scaling) (duration : Int) : ℚ :=
  ThreadTimers.scaled scaling.virtualTimeSpeedup scaling.globalScalingFactor duration

/-- A sample in seconds, converted to nanoseconds and rounded towards zero. -/
def nanoseconds (sample : ℚ) : Int := (toLongLong (toDouble (sample * 10 ^ 9))).toInt

inductive NodeType where
  | source | sink | infiniteServer | localInfiniteServer | queueing | localQueueing
  deriving DecidableEq

/-- The nodes that consume the resources of the thread's own host. -/
def NodeType.isLocal : NodeType → Bool
  | .localInfiniteServer | .localQueueing => true
  | .source | .sink | .infiniteServer | .queueing => false

inductive Location (Node : Type*) where
  | node (n : Node)
  | postQueueingAction (n : Node)
  | postServiceAction (n : Node)
  deriving DecidableEq

inductive Controller where
  | single | multiple
  deriving DecidableEq

inductive Phase where
  | realCode | runnable
  | simulating (totalExecutionTime : Int)
  | committing
  deriving DecidableEq

/-- A thread, its customer and its model handler. The customer's demand is in nanoseconds. -/
structure Thread (Node : Type*) where
  timers : Timers := {}
  remainingLocalResourceConsumption : Int := 0
  serviceDemand : Int := 0
  location : Location Node
  isActiveInModel : Bool := true
  isFinished : Bool := false
  phase : Phase := .realCode
  deriving DecidableEq

/-- What a customer meets at a node: the sample of its demand, whether it gets a resource or a place in
    the queue, and the node its link leads to. -/
structure Arrival (Node : Type*) where
  sample : ℚ := 0
  resourceIsAvailable : Bool := true
  canAccept : Bool := true
  next : Node

inductive Event (Node : Type*) where
  | simulate (source : Node) (estimatedRealTime : VirtualTime) (remainingTimeslice : Option Timeslot)
  | resume (slot : Timeslot) (timelineTime activationTime : LongLong)
  | iterate (arrival : Arrival Node)
  | commit (timelineTime : LongLong)
  | wake (releaseTime : LongLong)

/-- `ModelHandler::simulateLocalServiceTime`: the time serviced, and what remains. -/
def simulateLocalServiceTime (remaining remainingTimeslotTime : Int) : Int × Int :=
  if remaining = 0 then (0,0)
  else if remaining ≤ remainingTimeslotTime then (remaining,0)
  else (remainingTimeslotTime,remaining - remainingTimeslotTime)

section Model
variable {Node : Type*} (nodeType : Node → NodeType) (scaling : Scaling) (controller : Controller)

namespace Thread
variable (thread : Thread Node)

def setTimers (timers : Timers) : Thread Node := { thread with timers }

def setLocation (location : Location Node) : Thread Node := { thread with location }

def setServiceDemand (serviceDemand : Int) : Thread Node := { thread with serviceDemand }

/-- A local demand is initiated, a remote one is waited for. -/
def invokeService (n : Node) : Thread Node :=
  if (nodeType n).isLocal then
    { thread.setLocation (.postServiceAction n) with remainingLocalResourceConsumption := thread.serviceDemand }
  else
    (thread.setLocation (.postServiceAction n)).setTimers
      (thread.timers.updateTimesBeforeWaitingWithTimeout scaling.virtualTimeSpeedup scaling.globalScalingFactor
        thread.serviceDemand)

/-- The null node takes a customer that finds the queue full, and does nothing. -/
def acceptAtQueue (n : Node) (arrival : Arrival Node) : Thread Node :=
  if arrival.resourceIsAvailable then thread.invokeService nodeType scaling n
  else if arrival.canAccept then { thread.setLocation (.postQueueingAction n) with isActiveInModel := false }
  else thread

def accept (n : Node) (arrival : Arrival Node) : Thread Node :=
  match nodeType n with
  | .source => thread.setLocation (.node arrival.next)
  | .sink => { thread with isFinished := true }
  | .infiniteServer | .localInfiniteServer =>
    (thread.setServiceDemand (nanoseconds arrival.sample)).invokeService nodeType scaling n
  | .queueing | .localQueueing =>
    (thread.setServiceDemand (nanoseconds arrival.sample)).acceptAtQueue nodeType scaling n arrival

/-- `ModelHandler::resumeModelSimulation`. -/
def enter (arrival : Arrival Node) : Thread Node :=
  match thread.location with
  | .node n => thread.accept nodeType scaling n arrival
  | .postQueueingAction n => thread.invokeService nodeType scaling n
  | .postServiceAction _ => thread.setLocation (.node arrival.next)

/-- `addLocalTime` on a 64-bit time. -/
def addLocalTime (time : Int) : Thread Node :=
  let added := thread.timers.addLocalTime (toLongLong (scaling.scaled time)).toInt
  thread.setTimers (added.setEstimatedRealTime (longLong added.estimatedRealTime))

/-- One round of the loop, without its test. -/
def progress (total : Int) (arrival : Arrival Node) : Thread Node :=
  let (localTimeServiced,remaining) := simulateLocalServiceTime thread.remainingLocalResourceConsumption total
  if localTimeServiced ≠ 0 then
    { thread.addLocalTime scaling localTimeServiced with remainingLocalResourceConsumption := remaining }
  else thread.enter nodeType scaling arrival

/-- The test of the loop. -/
def next (total : Int) (before : Int) : Thread Node :=
  let left := total - (thread.timers.estimatedRealTime - before)
  { thread with phase :=
      if thread.isFinished = false ∧ thread.isActiveInModel = true ∧ thread.timers.timeout ≤ 0 ∧ 0 < left then
        .simulating left
      else .committing }

/-- `isModelTimedWaiting` -/
def isModelTimedWaiting : Bool := thread.isActiveInModel ∧ 0 < thread.timers.timeout

/-- The times of a thread whose simulation is resumed. -/
def resumedTimers (timelineTime activationTime : Int) : Timers :=
  let timers := if thread.isModelTimedWaiting then thread.timers.setTimeout (-1)
    else thread.timers.leapForwardTo timelineTime
  match controller with
  | .single => timers.updateTimesAfterResuming timelineTime
  | .multiple => (timers.leapForwardTo activationTime).updateTimesAfterResuming activationTime

/-- `commitModelSimulationProgress` -/
def committedTimers (timelineTime : Int) : Timers :=
  match controller with
  | .single => thread.timers
  | .multiple =>
    if thread.isModelTimedWaiting then thread.timers else thread.timers.leapForwardTo timelineTime

/-- A thread enters its model with the rest of its timeslice, or is pushed into the runnable queue. -/
def simulate (source : Node) (time : Int) (slice : Option Timeslot) : Option (Thread Node) :=
  if thread.phase = .realCode then
    some { (thread.setLocation (.node source)).setTimers (thread.timers.setEstimatedRealTime time) with
      isActiveInModel := true
      isFinished := false
      phase := slice.elim .runnable fun slot => .simulating slot }
  else none

def resume (slot timelineTime activationTime : Int) : Option (Thread Node) :=
  if thread.phase = .runnable ∧ thread.isActiveInModel then
    some { thread.setTimers (thread.resumedTimers controller timelineTime activationTime) with
      phase := .simulating slot }
  else none

/-- One round of `VexThreadState::resumeModelSimulation`. -/
def iterate (arrival : Arrival Node) : Option (Thread Node) :=
  match thread.phase with
  | .simulating total =>
    some ((thread.progress nodeType scaling total arrival).next total thread.timers.estimatedRealTime)
  | _ => none

def commit (timelineTime : Int) : Option (Thread Node) :=
  if thread.phase = .committing then
    some { thread.setTimers (thread.committedTimers controller timelineTime) with
      phase := if thread.isFinished then .realCode else .runnable }
  else none

/-- `VexSchedSimCustomer::resume`, by the scheduler that released a resource. -/
def wake (releaseTime : Int) : Option (Thread Node) :=
  if thread.phase ≠ .realCode ∧ thread.isActiveInModel = false then
    some { thread.setTimers (thread.timers.leapForwardTo releaseTime) with isActiveInModel := true }
  else none

def step (thread : Thread Node) : Event Node → Option (Thread Node)
  | .simulate source time slice => thread.simulate source time slice
  | .resume slot timelineTime activationTime => thread.resume controller slot timelineTime activationTime
  | .iterate arrival => thread.iterate nodeType scaling arrival
  | .commit timelineTime => thread.commit controller timelineTime
  | .wake releaseTime => thread.wake releaseTime

end Thread

/-- A thread that has not simulated a model yet. -/
def start (source : Node) : Thread Node := { location := .node source }

/-! ## The demands that keep the time monotone -/

namespace Thread
variable (thread : Thread Node)

/-- The time of a thread in its model does not go back, and no negative demand remains. -/
def Forward (next : Thread Node) : Prop :=
  (thread.phase ≠ .realCode → thread.timers.estimatedRealTime ≤ next.timers.estimatedRealTime) ∧
    0 ≤ next.remainingLocalResourceConsumption

/-- The node at which a service begins when the thread enters its location, and the demand. -/
def beginning (arrival : Arrival Node) : Option (Node × Int) :=
  match thread.location with
  | .node n =>
    match nodeType n with
    | .infiniteServer | .localInfiniteServer => some (n,nanoseconds arrival.sample)
    | .queueing | .localQueueing => if arrival.resourceIsAvailable then some (n,nanoseconds arrival.sample) else none
    | .source | .sink => none
  | .postQueueingAction n => some (n,thread.serviceDemand)
  | .postServiceAction _ => none

/-- Where the `float` of the time is not below it, the added duration is not negative or is lost beside it; where
    it is below, the duration is positive and is not lost. A time of 0 loses less than a nanosecond. -/
def Lasts (runTime : Int) (duration : ℚ) : Prop :=
  if runTime = 0 then -1 < duration
  else if (runTime : ℚ) ≤ toFloat runTime then 0 ≤ duration ∨ TakesIn 24 (toFloat runTime) duration
  else 0 < duration ∧ ¬ TakesIn 24 (toFloat runTime) duration

/-- The demand of a local service is not negative; that of a remote one is 0, reaches the largest time, or lasts
    with a `float` sum below 2 ^ 63. -/
def Demands (n : Node) (runTime demand : Int) : Prop :=
  if (nodeType n).isLocal then 0 ≤ demand
  else demand = 0 ∨ reachesMax scaling.virtualTimeSpeedup scaling.globalScalingFactor runTime demand ∨
    Lasts runTime (scaling.scaled demand) ∧ toFloat runTime + scaling.scaled demand < 2 ^ 63 - 2 ^ 38

/-- A service begins with such a demand, and consumed local time leaves the thread's time within 64 bits. -/
def Fits : Event Node → Prop
  | .iterate arrival =>
    match thread.phase with
    | .simulating total =>
      if thread.remainingLocalResourceConsumption = 0 then
        ∀ service ∈ thread.beginning nodeType arrival,
          Demands nodeType scaling service.1 thread.timers.estimatedRealTime service.2
      else thread.timers.estimatedRealTime +
        truncated (scaling.scaled (min thread.remainingLocalResourceConsumption total)) ≤ LLONG_MAX
    | _ => True
  | _ => True

end Thread

/-! ## Exactly those demands do -/

section Rounds
variable {nodeType : Node → NodeType} {scaling : Scaling} {controller : Controller} {thread : Thread Node}

private structure Inv (thread : Thread Node) : Prop where
  started : 0 ≤ thread.timers.estimatedRealTime
  bounded : thread.timers.estimatedRealTime ≤ LLONG_MAX
  nonneg : 0 ≤ thread.remainingLocalResourceConsumption
  positive : ∀ total, thread.phase = .simulating total → 0 < total

/-- What a round does to the time and to the remaining demand. -/
private def Advances (thread next : Thread Node) : Prop :=
  thread.timers.estimatedRealTime ≤ next.timers.estimatedRealTime ∧
    0 ≤ next.remainingLocalResourceConsumption

private theorem le_leapForwardTo (timers : Timers) (time : Int) :
    timers.estimatedRealTime ≤ (timers.leapForwardTo time).estimatedRealTime := by
  unfold Timers.leapForwardTo
  split
  · rename_i later
    exact later.le
  · exact le_rfl

private theorem leapForwardTo_bounded {timers : Timers} {time : Int}
    (bounded : timers.estimatedRealTime ≤ LLONG_MAX) (within : time ≤ LLONG_MAX) :
    (timers.leapForwardTo time).estimatedRealTime ≤ LLONG_MAX := by
  unfold Timers.leapForwardTo
  split
  · exact within
  · exact bounded

private theorem toInt_le_max (value : Int64) : value.toInt ≤ LLONG_MAX := by
  have high := Int64.toInt_lt value
  unfold LLONG_MAX
  omega

private theorem waiting_bounded {timers : Timers} (bounded : timers.estimatedRealTime ≤ LLONG_MAX)
    (virtualTimeSpeedup globalScalingFactor : ℚ) (timeout : Int) :
    (timers.updateTimesBeforeWaitingWithTimeout virtualTimeSpeedup globalScalingFactor timeout).estimatedRealTime ≤
      LLONG_MAX := by
  unfold Timers.updateTimesBeforeWaitingWithTimeout
  split
  · exact bounded
  · split
    · exact le_rfl
    · exact toInt_le_max _

/-- The conversions keep a time that is not before the run time, if and only if the scaled duration lasts. -/
private theorem le_sum_iff {runTime : Int} (started : 0 ≤ runTime) (duration : Int) :
    runTime ≤ (toLongLong (toFloat (toFloat runTime + scaling.scaled duration))).toInt ↔
      Thread.Lasts runTime (scaling.scaled duration) ∧ toFloat runTime + scaling.scaled duration < 2 ^ 63 - 2 ^ 38 := by
  rw [le_toInt_toLongLong_iff started,toFloat_lt_iff]
  refine and_congr_left fun _ => ?_
  unfold Thread.Lasts
  by_cases zero : runTime = 0
  · have isFloat : toFloat (scaling.scaled duration) = scaling.scaled duration := toFloat_idem _
    have none : toFloat 0 = 0 := rounded_zero 24
    rw [if_pos zero,zero,Int.cast_zero,none,zero_add,isFloat]
    exact truncated_nonneg_iff
  · have positive : 0 < runTime := by omega
    rw [if_neg zero,le_truncated_iff positive]
    exact le_rounded_add_iff (by decide) (by exact_mod_cast positive)

/-- A round that begins a service consists of nothing else. -/
theorem enter_of_beginning {arrival : Arrival Node} {n : Node} {demand : Int}
    (found : thread.beginning nodeType arrival = some (n,demand)) :
    thread.enter nodeType scaling arrival = (thread.setServiceDemand demand).invokeService nodeType scaling n := by
  cases located : thread.location with
  | node m =>
    cases kind : nodeType m <;> simp only [Thread.beginning,located,kind] at found
    case source | sink => cases found
    case infiniteServer | localInfiniteServer =>
      cases found
      simp only [Thread.enter,located,Thread.accept,kind]
    case queueing | localQueueing =>
      cases available : arrival.resourceIsAvailable <;> simp only [available] at found
      · cases found
      · cases found
        simp only [Thread.enter,located,Thread.accept,kind,Thread.acceptAtQueue,available,if_true]
  | postQueueingAction m =>
    simp only [Thread.beginning,located] at found
    cases found
    simp only [Thread.enter,located]
    rfl
  | postServiceAction m =>
    simp only [Thread.beginning,located] at found
    cases found

private theorem enter_of_none {arrival : Arrival Node} (none : thread.beginning nodeType arrival = none) :
    (thread.enter nodeType scaling arrival).timers = thread.timers ∧
      (thread.enter nodeType scaling arrival).remainingLocalResourceConsumption =
        thread.remainingLocalResourceConsumption := by
  cases located : thread.location with
  | node m =>
    cases kind : nodeType m <;> simp only [Thread.beginning,located,kind] at none <;>
      simp only [Thread.enter,located,Thread.accept,kind]
    case source | sink => simp only [Thread.setLocation,and_self]
    case infiniteServer | localInfiniteServer => cases none
    case queueing | localQueueing =>
      unfold Thread.acceptAtQueue
      split
      · rename_i available
        rw [if_pos available] at none
        cases none
      · split <;> exact ⟨rfl,rfl⟩
  | postQueueingAction m =>
    simp only [Thread.beginning,located] at none
    cases none
  | postServiceAction m =>
    simp only [Thread.enter,located,Thread.setLocation,and_self]

private theorem advances_invoked_iff (started : 0 ≤ thread.timers.estimatedRealTime)
    (bounded : thread.timers.estimatedRealTime ≤ LLONG_MAX)
    (spent : thread.remainingLocalResourceConsumption = 0) (n : Node) (demand : Int) :
    Advances thread ((thread.setServiceDemand demand).invokeService nodeType scaling n) ↔
      Thread.Demands nodeType scaling n thread.timers.estimatedRealTime demand := by
  unfold Advances Thread.invokeService Thread.Demands
  cases home : (nodeType n).isLocal with
  | true => simp [Thread.setLocation,Thread.setServiceDemand]
  | false =>
    simp only [Bool.false_eq_true,if_false,Thread.setTimers,Thread.setLocation,Thread.setServiceDemand,
      Timers.updateTimesBeforeWaitingWithTimeout,spent]
    by_cases zero : demand = 0
    · simp [zero,Timers.setTimeout]
    rw [if_neg zero,or_iff_right zero]
    by_cases largest : reachesMax scaling.virtualTimeSpeedup scaling.globalScalingFactor
        thread.timers.estimatedRealTime demand
    · rw [if_pos largest]
      exact iff_of_true ⟨bounded,le_rfl⟩ (.inl largest)
    · rw [if_neg largest,or_iff_right largest,← le_sum_iff started]
      exact and_iff_left le_rfl

private theorem advances_entered_iff {arrival : Arrival Node} (started : 0 ≤ thread.timers.estimatedRealTime)
    (bounded : thread.timers.estimatedRealTime ≤ LLONG_MAX)
    (spent : thread.remainingLocalResourceConsumption = 0) :
    Advances thread (thread.enter nodeType scaling arrival) ↔
      ∀ service ∈ thread.beginning nodeType arrival,
        Thread.Demands nodeType scaling service.1 thread.timers.estimatedRealTime service.2 := by
  cases found : thread.beginning nodeType arrival with
  | none =>
    obtain ⟨timers,remaining⟩ := @enter_of_none _ nodeType scaling _ _ found
    simp [Advances,timers,remaining,spent]
  | some service =>
    rw [enter_of_beginning found,advances_invoked_iff started bounded spent]
    simp

private theorem scaled_nonneg {duration : Int} (nonneg : 0 ≤ duration) : 0 ≤ scaling.scaled duration := by
  have product : ∀ value factor : ℚ, 0 ≤ value → 0 < factor → 0 ≤ toFloat (value * factor) := by
    intro value factor nonneg positive
    have mono := @rounded_mono 24 0 (value * factor) (by decide) (mul_nonneg nonneg positive.le)
    rwa [rounded_zero] at mono
  have duration := product duration 1 (by exact_mod_cast nonneg) one_pos
  rw [mul_one] at duration
  exact product _ _ (product _ _ duration scaling.virtualTimeSpeedup_pos) scaling.globalScalingFactor_pos

/-- A scaled duration that overflows makes the time go back. -/
private theorem le_added_iff {time duration : Int} (started : 0 ≤ time) (bounded : time ≤ LLONG_MAX) (nonneg : 0 ≤ duration) :
    time ≤ longLong (time + (toLongLong (scaling.scaled duration)).toInt) ↔
      time + truncated (scaling.scaled duration) ≤ LLONG_MAX := by
  have positive := truncated_nonneg_iff.mpr (lt_of_lt_of_le neg_one_lt_zero (@scaled_nonneg scaling duration nonneg))
  rw [toLongLong]
  split
  · rename_i fits
    rw [Int64.toInt_ofInt_of_le (by simpa using fits.1) (by simpa using fits.2)]
    unfold longLong LLONG_MAX at *
    rw [Int.bmod_def]
    omega
  · rename_i overflows
    have least : Int64.minValue.toInt = -2 ^ 63 := by decide
    rw [least]
    unfold longLong LLONG_MAX at *
    rw [Int.bmod_def]
    omega

/-- The remaining demand is serviced as far as the timeslot reaches. -/
private theorem simulateLocalServiceTime_eq {remaining total : Int} (demands : 0 < remaining) :
    simulateLocalServiceTime remaining total = (min remaining total,remaining - min remaining total) := by
  unfold simulateLocalServiceTime
  rw [if_neg (by omega)]
  split
  · rename_i fits
    rw [min_eq_left fits,sub_self]
  · rename_i longer
    rw [min_eq_right (not_le.mp longer).le]

private theorem advances_progress_iff {total : Int} {arrival : Arrival Node} (inv : Inv thread)
    (simulates : thread.phase = .simulating total) :
    Advances thread (thread.progress nodeType scaling total arrival) ↔
      thread.Fits nodeType scaling (.iterate arrival) := by
  have slot : 0 < total := inv.positive total simulates
  simp only [Thread.Fits,simulates]
  by_cases spent : thread.remainingLocalResourceConsumption = 0
  · rw [if_pos spent,← advances_entered_iff inv.started inv.bounded spent]
    simp only [Thread.progress,simulateLocalServiceTime,spent,if_true,ne_eq,not_true,if_false]
  · have demands : 0 < thread.remainingLocalResourceConsumption := lt_of_le_of_ne inv.nonneg (Ne.symm spent)
    have serviced : 0 < min thread.remainingLocalResourceConsumption total := lt_min demands slot
    have left : 0 ≤ thread.remainingLocalResourceConsumption - min thread.remainingLocalResourceConsumption total :=
      sub_nonneg.mpr (min_le_left _ total)
    rw [if_neg spent,← le_added_iff inv.started inv.bounded serviced.le]
    simp only [Thread.progress,simulateLocalServiceTime_eq demands,ne_eq,serviced.ne',not_false_eq_true,if_true,Advances]
    exact and_iff_left left

private theorem entered_bounded {arrival : Arrival Node} (bounded : thread.timers.estimatedRealTime ≤ LLONG_MAX) :
    (thread.enter nodeType scaling arrival).timers.estimatedRealTime ≤ LLONG_MAX := by
  cases found : thread.beginning nodeType arrival with
  | none => rw [(@enter_of_none _ nodeType scaling _ _ found).1]; exact bounded
  | some service =>
    rw [enter_of_beginning found,Thread.invokeService]
    split
    · exact bounded
    · exact waiting_bounded bounded _ _ _

private theorem progress_bounded {total : Int} {arrival : Arrival Node}
    (bounded : thread.timers.estimatedRealTime ≤ LLONG_MAX) :
    (thread.progress nodeType scaling total arrival).timers.estimatedRealTime ≤ LLONG_MAX := by
  unfold Thread.progress
  dsimp only
  split
  · have short := @Int.bmod_lt (thread.timers.addLocalTime
        (toLongLong (scaling.scaled
          (simulateLocalServiceTime thread.remainingLocalResourceConsumption total).1)).toInt).estimatedRealTime
        (2 ^ 64) (by decide)
    show Int.bmod _ _ ≤ 2 ^ 63 - 1
    omega
  · exact entered_bounded bounded

/-- The test of the loop changes neither time nor demand. -/
private theorem inv_next {total before : Int} (started : 0 ≤ thread.timers.estimatedRealTime)
    (bounded : thread.timers.estimatedRealTime ≤ LLONG_MAX)
    (nonneg : 0 ≤ thread.remainingLocalResourceConsumption) : Inv (thread.next total before) := by
  refine ⟨started,bounded,nonneg,?_⟩
  intro left simulates
  simp only [Thread.next] at simulates
  split at simulates
  · rename_i continues
    cases simulates
    exact continues.2.2.2
  · cases simulates

private theorem inv_iterate {next : Thread Node} {arrival : Arrival Node} (inv : Inv thread)
    (fits : thread.Fits nodeType scaling (.iterate arrival))
    (stepped : thread.iterate nodeType scaling arrival = some next) : Inv next := by
  unfold Thread.iterate at stepped
  split at stepped
  case h_2 => cases stepped
  rename_i total simulates
  cases stepped
  obtain ⟨forward,nonneg⟩ := (advances_progress_iff inv simulates).mpr fits
  exact inv_next (inv.started.trans forward) (progress_bounded inv.bounded) nonneg

private theorem inv_simulate {next : Thread Node} {source : Node} {time : VirtualTime} {slice : Option Timeslot}
    (inv : Inv thread) (stepped : thread.simulate source time slice = some next) : Inv next := by
  simp only [Thread.simulate,Option.ite_none_right_eq_some,Option.some.injEq] at stepped
  obtain ⟨-,rfl⟩ := stepped
  refine ⟨time.2.1,time.2.2,inv.nonneg,?_⟩
  intro total simulates
  cases slice with
  | none => cases simulates
  | some slot =>
    cases simulates
    exact slot.2

/-- The timers of a resumed thread leap forward at most. -/
private theorem resumedTimers_forward (timelineTime activationTime : LongLong)
    (bounded : thread.timers.estimatedRealTime ≤ LLONG_MAX) :
    thread.timers.estimatedRealTime ≤
        (thread.resumedTimers controller timelineTime activationTime).estimatedRealTime ∧
      (thread.resumedTimers controller timelineTime activationTime).estimatedRealTime ≤ LLONG_MAX := by
  have leapt : thread.timers.estimatedRealTime ≤ (if thread.isModelTimedWaiting then thread.timers.setTimeout (-1)
        else thread.timers.leapForwardTo timelineTime).estimatedRealTime ∧
      (if thread.isModelTimedWaiting then thread.timers.setTimeout (-1)
        else thread.timers.leapForwardTo timelineTime).estimatedRealTime ≤ LLONG_MAX := by
    split
    · exact ⟨le_rfl,bounded⟩
    · exact ⟨le_leapForwardTo _ _,leapForwardTo_bounded bounded timelineTime.2.2⟩
  cases controller with
  | single => exact leapt
  | multiple =>
    exact ⟨leapt.1.trans (le_leapForwardTo _ activationTime),leapForwardTo_bounded leapt.2 activationTime.2.2⟩

private theorem committedTimers_forward (timelineTime : LongLong)
    (bounded : thread.timers.estimatedRealTime ≤ LLONG_MAX) :
    thread.timers.estimatedRealTime ≤ (thread.committedTimers controller timelineTime).estimatedRealTime ∧
      (thread.committedTimers controller timelineTime).estimatedRealTime ≤ LLONG_MAX := by
  cases controller with
  | single => exact ⟨le_rfl,bounded⟩
  | multiple =>
    unfold Thread.committedTimers
    dsimp only
    split
    · exact ⟨le_rfl,bounded⟩
    · exact ⟨le_leapForwardTo _ _,leapForwardTo_bounded bounded timelineTime.2.2⟩

private theorem step_kept {next : Thread Node} {event : Event Node} (inv : Inv thread)
    (fits : thread.Fits nodeType scaling event)
    (stepped : thread.step nodeType scaling controller event = some next) : Inv next := by
  cases event with
  | simulate source time slice => exact inv_simulate inv stepped
  | resume slot timelineTime activationTime =>
    simp only [Thread.step,Thread.resume,Option.ite_none_right_eq_some,Option.some.injEq] at stepped
    obtain ⟨-,rfl⟩ := stepped
    obtain ⟨forward,bounded⟩ := @resumedTimers_forward _ controller _ timelineTime activationTime inv.bounded
    refine ⟨inv.started.trans forward,bounded,inv.nonneg,?_⟩
    intro total simulates
    cases simulates
    exact slot.2
  | iterate arrival => exact inv_iterate inv fits stepped
  | commit timelineTime =>
    simp only [Thread.step,Thread.commit,Option.ite_none_right_eq_some,Option.some.injEq] at stepped
    obtain ⟨-,rfl⟩ := stepped
    obtain ⟨forward,bounded⟩ := @committedTimers_forward _ controller _ timelineTime inv.bounded
    refine ⟨inv.started.trans forward,bounded,inv.nonneg,?_⟩
    intro total simulates
    dsimp only at simulates
    split at simulates <;> cases simulates
  | wake releaseTime =>
    simp only [Thread.step,Thread.wake,Option.ite_none_right_eq_some,Option.some.injEq] at stepped
    obtain ⟨-,rfl⟩ := stepped
    exact ⟨inv.started.trans (le_leapForwardTo _ _),leapForwardTo_bounded inv.bounded releaseTime.2.2,inv.nonneg,inv.positive⟩

private theorem forward_iff {next : Thread Node} {event : Event Node} (inv : Inv thread)
    (stepped : thread.step nodeType scaling controller event = some next) :
    thread.Forward next ↔ thread.Fits nodeType scaling event := by
  cases event with
  | simulate source time slice =>
    simp only [Thread.step,Thread.simulate,Option.ite_none_right_eq_some,Option.some.injEq] at stepped
    obtain ⟨outside,rfl⟩ := stepped
    exact iff_of_true ⟨fun inside => absurd outside inside,inv.nonneg⟩ trivial
  | resume slot timelineTime activationTime =>
    simp only [Thread.step,Thread.resume,Option.ite_none_right_eq_some,Option.some.injEq] at stepped
    obtain ⟨-,rfl⟩ := stepped
    exact iff_of_true ⟨fun _ => (resumedTimers_forward timelineTime activationTime inv.bounded).1,inv.nonneg⟩ trivial
  | iterate arrival =>
    change thread.iterate nodeType scaling arrival = some next at stepped
    unfold Thread.iterate at stepped
    split at stepped
    case h_2 => cases stepped
    rename_i total simulates
    cases stepped
    rw [← advances_progress_iff inv simulates]
    have inside : thread.phase ≠ .realCode := by simp [simulates]
    exact and_congr_left' (forall_prop_of_true inside)
  | commit timelineTime =>
    simp only [Thread.step,Thread.commit,Option.ite_none_right_eq_some,Option.some.injEq] at stepped
    obtain ⟨-,rfl⟩ := stepped
    exact iff_of_true ⟨fun _ => (committedTimers_forward timelineTime inv.bounded).1,inv.nonneg⟩ trivial
  | wake releaseTime =>
    simp only [Thread.step,Thread.wake,Option.ite_none_right_eq_some,Option.some.injEq] at stepped
    obtain ⟨-,rfl⟩ := stepped
    exact iff_of_true ⟨fun _ => le_leapForwardTo _ _,inv.nonneg⟩ trivial

private theorem forward_next_iff (event : Event Node) (inv : Inv thread) :
    (∀ next ∈ thread.step nodeType scaling controller event, thread.Forward next) ↔
      thread.Fits nodeType scaling event := by
  cases stepped : thread.step nodeType scaling controller event with
  | some next => simp [forward_iff inv stepped]
  | none =>
    refine iff_of_true (fun next member => absurd member (Option.not_mem_none next)) ?_
    cases event with
    | iterate arrival =>
      change thread.iterate nodeType scaling arrival = none at stepped
      cases phase : thread.phase with
      | simulating total =>
        rw [Thread.iterate,phase] at stepped
        exact absurd stepped (Option.some_ne_none _)
      | _ => simp only [Thread.Fits,phase]
    | _ => trivial

private theorem inv_start (source : Node) : Inv (start source) :=
  ⟨le_rfl,show (0 : Int) ≤ LLONG_MAX by decide,le_rfl,nofun⟩

end Rounds

/-- For all networks, scaling factors, timelines, samples and timeslots: the thread's time never goes back
    in its models and no negative demand remains, in all steps of a run, exactly if every service of the
    run begins with a demand that is nonnegative or lasts, and the time stays within 64 bits. -/
theorem model_time_forward_iff {Node : Type*} (nodeType : Node → NodeType) (scaling : Scaling)
    (controller : Controller) (source : Node) (events : List (Event Node)) :
    Meets (Thread.step nodeType scaling controller)
        (fun thread event => ∀ next ∈ thread.step nodeType scaling controller event, thread.Forward next)
        (start source) events ↔
      Meets (Thread.step nodeType scaling controller) (Thread.Fits nodeType scaling) (start source) events := by
  apply meets_congr_of_invariant _ _ (inv_start source)
  · intro thread event next inv forward stepped
    exact step_kept inv ((forward_next_iff event inv).mp forward) stepped
  · intro thread event inv
    exact forward_next_iff event inv

end Model

/-- A source, a delay and a sink. -/
private def delayed (delay : NodeType) : Nat → NodeType
  | 0 => .source
  | 1 => delay
  | _ => .sink

/-- A thread enters its model with a timeslice of 1 ms and arrives at the delay. -/
private def arriving (time : VirtualTime) : List (Event Nat) :=
  [.simulate 0 time (some ⟨1000000,by decide⟩),.iterate { next := 1 }]

private def fiveMilliseconds : VirtualTime := ⟨5000000,by decide⟩

/-- A normal distribution returns the sample -1 ms. -/
private def negativeSample : Arrival Nat := { sample := -1 / 1000,next := 2 }

/-- A time that is no `float`. -/
private def oddTime : VirtualTime := ⟨16777217,by decide⟩

private def nanosecond : Arrival Nat := { sample := 1 / 10 ^ 9,next := 2 }

/-- At a remote delay the thread goes from 5 ms back to 4 ms; at a local one a negative demand remains. A remote
    demand of 1 ns takes a thread back by 1 ns. -/
theorem samples_go_back :
    (∃ thread next, run (Thread.step (delayed .infiniteServer) .unscaled .single) (start 0) (arriving fiveMilliseconds) =
        some thread ∧ thread.step (delayed .infiniteServer) .unscaled .single (.iterate negativeSample) = some next ∧
      thread.phase ≠ .realCode ∧ thread.timers.estimatedRealTime = 5000000 ∧
      next.timers.estimatedRealTime = 4000000) ∧
    (∃ next, run (Thread.step (delayed .localInfiniteServer) .unscaled .single) (start 0)
        (arriving fiveMilliseconds ++ [.iterate negativeSample]) = some next ∧
      next.remainingLocalResourceConsumption = -1000000) ∧
    ∃ thread next, run (Thread.step (delayed .infiniteServer) .unscaled .single) (start 0) (arriving oddTime) =
        some thread ∧ thread.step (delayed .infiniteServer) .unscaled .single (.iterate nanosecond) = some next ∧
      thread.phase ≠ .realCode ∧ next.serviceDemand = 1 ∧ thread.timers.estimatedRealTime = 16777217 ∧
      next.timers.estimatedRealTime = 16777216 := by
  refine ⟨?_,?_,?_⟩
  · obtain ⟨thread,executed,checked⟩ := @exists_of_checked _ _ (Thread.step (delayed .infiniteServer) .unscaled .single)
      (fun thread => thread.phase ≠ .realCode ∧ thread.timers.estimatedRealTime = 5000000 ∧
        ∃ next ∈ thread.step (delayed .infiniteServer) .unscaled .single (.iterate negativeSample),
          next.timers.estimatedRealTime = 4000000)
      (start 0) (arriving fiveMilliseconds) (by decide +kernel)
    obtain ⟨inside,before,next,stepped,after⟩ := of_decide_eq_true checked
    exact ⟨thread,next,executed,stepped,inside,before,after⟩
  · obtain ⟨next,executed,checked⟩ := @exists_of_checked _ _ (Thread.step (delayed .localInfiniteServer) .unscaled .single)
      (fun next => next.remainingLocalResourceConsumption = -1000000) (start 0)
      (arriving fiveMilliseconds ++ [.iterate negativeSample]) (by decide +kernel)
    exact ⟨next,executed,of_decide_eq_true checked⟩
  · obtain ⟨thread,executed,checked⟩ := @exists_of_checked _ _ (Thread.step (delayed .infiniteServer) .unscaled .single)
      (fun thread => thread.phase ≠ .realCode ∧ thread.timers.estimatedRealTime = 16777217 ∧
        ∃ next ∈ thread.step (delayed .infiniteServer) .unscaled .single (.iterate nanosecond),
          next.serviceDemand = 1 ∧ next.timers.estimatedRealTime = 16777216)
      (start 0) (arriving oddTime) (by decide +kernel)
    obtain ⟨inside,before,next,stepped,demand,after⟩ := of_decide_eq_true checked
    exact ⟨thread,next,executed,stepped,inside,demand,before,after⟩

end Vexjine.ModelTime
