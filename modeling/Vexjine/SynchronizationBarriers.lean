import Vexjine.Runs
import Vexjine.ThreadTimers

/-!
# Synchronization barriers of time-scaled threads

The loosely synchronized manager adds its time slot to the estimated run time of a
time-scaled thread that runs, and takes it off again when the thread's time is
updated, when it is suspended and when its scaling ends. Every place takes the
amount from the manager's present time slot. Beside each thread stand the run time
it would have without barriers and the barriers that were set and cleared. All times
are those of 64 bits; only the timeout of a wait is added as a `float`.
-/

namespace Vexjine.SynchronizationBarriers
open Vexjine.VirtualTimeline (LLONG_MAX)
open Vexjine.ThreadTimers (Timers scaled reachesMax)
open Vexjine.Floats (toFloat toLongLong)
set_option linter.unusedSimpArgs false
set_option linter.unusedSectionVars false

/-! ## A thread -/

inductive Barrier
  | set (schedulerTimeslot : Int64)
  | clear (schedulerTimeslot : Int64)
  deriving DecidableEq

/-- The fields of a thread that the barriers depend on. No step reads the last two: the run time
    without barriers, and the barriers from the newest to the oldest. -/
structure VexThreadState where
  estimatedRealTime : Int64
  /-- Whether `getTimeScalingFactor` differs from 1. -/
  timeScaled : Bool
  isRunning : Bool
  threadCurrentlyControllingManager : Nat
  withoutBarriers : Int64
  barriers : List Barrier
  deriving DecidableEq

/-- The run time of a thread before it waits. -/
def waited (virtualTimeSpeedup globalScalingFactor : ℚ) (timeout : Option Int64) (estimatedRealTime : Int64) : Int64 :=
  match timeout with
  | none => estimatedRealTime
  | some timeout =>
    let timers : Timers := { estimatedRealTime := estimatedRealTime.toInt }
    Int64.ofInt
      (timers.updateTimesBeforeWaitingWithTimeout virtualTimeSpeedup globalScalingFactor timeout.toInt).estimatedRealTime

namespace VexThreadState
variable (state : VexThreadState)

def setSynchronizationBarrierTime (schedulerTimeslot : Int64) : VexThreadState :=
  { state with
    estimatedRealTime := state.estimatedRealTime + schedulerTimeslot
    barriers := .set schedulerTimeslot :: state.barriers }

def clearSynchronizationBarrierTime (schedulerTimeslot : Int64) : VexThreadState :=
  { state with
    estimatedRealTime := state.estimatedRealTime - schedulerTimeslot
    barriers := .clear schedulerTimeslot :: state.barriers }

/-- Every other update that adds to the estimated run time. -/
def addTime (timeAdded : Int64) : VexThreadState :=
  { state with
    estimatedRealTime := state.estimatedRealTime + timeAdded
    withoutBarriers := state.withoutBarriers + timeAdded }

/-- What `updateTimesBeforeWaitingWithTimeout` makes of the run time; a wait without a timeout leaves it. -/
def addTimeout (virtualTimeSpeedup globalScalingFactor : ℚ) (timeout : Option Int64) : VexThreadState :=
  { state with
    estimatedRealTime := waited virtualTimeSpeedup globalScalingFactor timeout state.estimatedRealTime
    withoutBarriers := waited virtualTimeSpeedup globalScalingFactor timeout state.withoutBarriers }

/-- `leapForwardTo` and `leapTo`. -/
def leapForwardTo (time : Int64) : VexThreadState :=
  { state with
    estimatedRealTime := if state.estimatedRealTime < time then time else state.estimatedRealTime
    withoutBarriers := if state.withoutBarriers < time then time else state.withoutBarriers }

def setEstimatedRealTime (time : Int64) : VexThreadState := { state with estimatedRealTime := time,withoutBarriers := time }

def setRunning (isRunning : Bool) : VexThreadState := { state with isRunning }

def setTimeScaled (timeScaled : Bool) : VexThreadState := { state with timeScaled }

def setManager (managerId : Nat) : VexThreadState := { state with threadCurrentlyControllingManager := managerId }

/-! ## The manager's methods, with its present time slot -/

def locklessUpdateTimeBy (schedulerTimeslot timeDiff : Int64) : VexThreadState :=
  (if state.timeScaled then state.clearSynchronizationBarrierTime schedulerTimeslot else state).addTime timeDiff

/-- Of `setCurrentThreadVT` and `updateCurrentThreadVT`, from the CPU time since the last update. -/
def setCurrentThreadVT (schedulerTimeslot timeDiff : Int64) : VexThreadState :=
  if 0 < timeDiff then state.locklessUpdateTimeBy schedulerTimeslot timeDiff else state

/-- Where no other thread runs on the manager. -/
def setRunningThread (managerId : Nat) (schedulerTimeslot globalTime : Int64) : VexThreadState :=
  let state := ((state.setManager managerId).setRunning true).leapForwardTo globalTime
  if state.timeScaled then state.setSynchronizationBarrierTime schedulerTimeslot else state

def setSuspendedAndPushToRunnables (schedulerTimeslot : Int64) : VexThreadState :=
  (if state.timeScaled then state.clearSynchronizationBarrierTime schedulerTimeslot else state).setRunning false

/-- A suspension with `SUSPEND_OPT_THREAD_ALREADY_IN_LIST`, and the manager's `setSuspended`. -/
def setSuspended : VexThreadState := state.setRunning false

def onIntentionToKeepOnRunning (schedulerTimeslot : Int64) : VexThreadState :=
  if state.timeScaled then state.setSynchronizationBarrierTime schedulerTimeslot else state

end VexThreadState

/-! ## The managers and their threads -/

variable {Thread : Type*} [DecidableEq Thread]

structure State (Thread : Type*) where
  threads : Thread → VexThreadState
  schedulerTimeslot : Nat → Int64
  defaultSchedulerTimeslot : Nat → Int64

inductive Intention
  | toKeepOnRunning
  | toBeSuspended
  | toBeDisregarded
  deriving DecidableEq

/-- What is done with one thread: by its own handlers, by the signal handler and its scheduler, and by
    a thread that interrupts it (`onWrappedTimedWaitingInterrupt` and `onAnyReplacedWaitingInterrupt` are
    one action) or that unparks it without a timeout. -/
inductive Action
  | updateThreadLocalTimeSinceLastResumeTo (timeAdded : Int64)
  | setCurrentThreadVT (timeDiff : Int64)
  | onThreadYield (timeDiff highestTimeAfterMe : Int64)
  | suspendCurrentThread
  | suspendCurrentThreadAlreadyInList
  | setRunningThread (managerId : Nat) (globalTime : Int64)
  | setRunningThreadRefused (managerId : Nat) (alreadyInRunnable : Bool)
  | startTimeScaling (globalTime : Int64)
  | startTimeScalingRefused (alreadyInRunnable : Bool)
  | endTimeScaling
  | onSignalledFromScheduler (timeDiff : Int64) (intention : Intention)
  | onReplacedWaiting (virtualTimeSpeedup globalScalingFactor : ℚ) (timeout : Option Int64)
  | setIoThread (timeAdded : Int64)
  | onWrappedWaitingStart (virtualTimeSpeedup globalScalingFactor : ℚ) (timeout : Option Int64) (timeDiff : Int64)
  | onWrappedWaitingEnd (globalTime timeDiff : Int64)
  | suspendLooseCurrentThread (timeDiff : Int64)
  | onInterrupt (interruptionTime : Int64)
  | onWrappedWaitingInterrupt (interruptionTime : Int64)
  deriving DecidableEq

inductive Event (Thread : Type*)
  | act (thread : Thread) (action : Action)
  | setSchedulerTimeslot (managerId : Nat) (timeslot : Int64)
  | minimizeSchedulerTimeslot (managerId : Nat)
  | resetDefaultSchedulerTimeslot (managerId : Nat)

/-- What the action does to the thread; the manager is the thread's own one where none is named. -/
def Action.perform (slots : Nat → Int64) (state : VexThreadState) : Action → VexThreadState
  | .updateThreadLocalTimeSinceLastResumeTo timeAdded => if 0 < timeAdded then state.addTime timeAdded else state
  | .setCurrentThreadVT timeDiff => state.setCurrentThreadVT (slots state.threadCurrentlyControllingManager) timeDiff
  -- without a positive difference the time is updated by the yield's duration, which is not negative
  | .onThreadYield timeDiff highestTimeAfterMe =>
    (state.locklessUpdateTimeBy (slots state.threadCurrentlyControllingManager) timeDiff).leapForwardTo
      (highestTimeAfterMe + 1)
  | .suspendCurrentThread => state.setSuspendedAndPushToRunnables (slots state.threadCurrentlyControllingManager)
  | .suspendCurrentThreadAlreadyInList => state.setSuspended
  | .setRunningThread managerId globalTime => state.setRunningThread managerId (slots managerId) globalTime
  | .setRunningThreadRefused managerId alreadyInRunnable =>
    if alreadyInRunnable then state.setSuspended else state.setSuspendedAndPushToRunnables (slots managerId)
  | .startTimeScaling globalTime => (state.setTimeScaled true).setRunningThread state.threadCurrentlyControllingManager
      (slots state.threadCurrentlyControllingManager) globalTime
  | .startTimeScalingRefused alreadyInRunnable =>
    let state := state.setTimeScaled true
    if alreadyInRunnable then state.setSuspended
    else state.setSuspendedAndPushToRunnables (slots state.threadCurrentlyControllingManager)
  | .endTimeScaling =>
    (state.setTimeScaled false).clearSynchronizationBarrierTime (slots state.threadCurrentlyControllingManager)
  | .onSignalledFromScheduler timeDiff intention =>
    let state := state.setCurrentThreadVT (slots state.threadCurrentlyControllingManager) timeDiff
    match intention with
    | .toKeepOnRunning => state.onIntentionToKeepOnRunning (slots state.threadCurrentlyControllingManager)
    | .toBeSuspended | .toBeDisregarded => state.setSuspended
  | .onReplacedWaiting virtualTimeSpeedup globalScalingFactor timeout =>
    (state.addTimeout virtualTimeSpeedup globalScalingFactor timeout).setSuspended
  | .setIoThread timeAdded => (state.addTime timeAdded).setSuspended
  | .onWrappedWaitingStart virtualTimeSpeedup globalScalingFactor timeout timeDiff =>
    ((state.addTimeout virtualTimeSpeedup globalScalingFactor timeout).setCurrentThreadVT
      (slots state.threadCurrentlyControllingManager) timeDiff).setSuspended
  | .onWrappedWaitingEnd globalTime timeDiff => (state.leapForwardTo globalTime).setCurrentThreadVT
      (slots state.threadCurrentlyControllingManager) timeDiff
  -- the thread's suspension or its core follow
  | .suspendLooseCurrentThread timeDiff =>
    state.setCurrentThreadVT (slots state.threadCurrentlyControllingManager) timeDiff
  | .onInterrupt interruptionTime => state.setEstimatedRealTime interruptionTime
  -- the interrupted thread is set WAITING
  | .onWrappedWaitingInterrupt interruptionTime => (state.setEstimatedRealTime interruptionTime).setRunning false

/-- The states in which an action can occur. A thread that runs is interrupted too: `onUnpark` reaches one
    whose flag `parked` is left from a park that timed out, and may set it WAITING while it goes on, so
    that the actions of a thread that is not scaled do not depend on its state. -/
def Action.enabled (state : VexThreadState) : Action → Bool
  | .startTimeScaling _ | .startTimeScalingRefused _ => !state.timeScaled
  | .endTimeScaling => state.isRunning && state.timeScaled
  | .onThreadYield _ _ | .onSignalledFromScheduler _ _ | .onReplacedWaiting _ _ _ | .setIoThread _
  | .onWrappedWaitingStart _ _ _ _ => state.isRunning || !state.timeScaled
  | .onWrappedWaitingEnd _ _ | .suspendLooseCurrentThread _ => !state.isRunning || !state.timeScaled
  | .updateThreadLocalTimeSinceLastResumeTo _ | .setCurrentThreadVT _ | .suspendCurrentThread
  | .suspendCurrentThreadAlreadyInList | .setRunningThread _ _ | .setRunningThreadRefused _ _ | .onInterrupt _
  | .onWrappedWaitingInterrupt _ => true

def State.setTimeslot (state : State Thread) (managerId : Nat) (timeslot : Int64) : State Thread :=
  { state with schedulerTimeslot := Function.update state.schedulerTimeslot managerId timeslot }

/-- The manager's time slot after an event that may change it. -/
def State.newTimeslot (state : State Thread) : Event Thread → Option (Nat × Int64)
  | .act _ _ => none
  | .setSchedulerTimeslot managerId timeslot => if 0 < timeslot then some (managerId,timeslot) else none
  | .minimizeSchedulerTimeslot managerId =>
    if 2000000 < state.defaultSchedulerTimeslot managerId then some (managerId,2000000) else none
  | .resetDefaultSchedulerTimeslot managerId => some (managerId,state.defaultSchedulerTimeslot managerId)

def step (state : State Thread) (event : Event Thread) : Option (State Thread) :=
  match event with
  | .act thread action =>
    if action.enabled (state.threads thread) then
      some { state with
        threads := Function.update state.threads thread (action.perform state.schedulerTimeslot (state.threads thread)) }
    else none
  | _ => match state.newTimeslot event with
    | none => some state
    | some (managerId,timeslot) => some (state.setTimeslot managerId timeslot)

/-- Threads that have just been spawned: not scaled, with the run times of their parents. -/
def initial (estimatedRealTime : Thread → Int64) (timeslots defaults : Nat → Int64) : State Thread where
  threads thread := ⟨estimatedRealTime thread,false,false,0,estimatedRealTime thread,[]⟩
  schedulerTimeslot := timeslots
  defaultSchedulerTimeslot := defaults

/-! ## What the barriers must do -/

/-- The barrier that is left after those of the list; `none` where one is set twice without a clear
    between, or cleared without a set, twice, or by another amount. -/
def outstanding : List Barrier → Option (Option Int64)
  | [] => some none
  | .set schedulerTimeslot :: earlier =>
    if outstanding earlier = some none then some (some schedulerTimeslot) else none
  | .clear schedulerTimeslot :: earlier =>
    if outstanding earlier = some (some schedulerTimeslot) then some none else none

/-- Sets and clears match, and the estimated run time less the outstanding barrier is that without barriers. -/
def Balanced (state : VexThreadState) : Prop :=
  ∃ barrier, outstanding state.barriers = some barrier ∧
    state.estimatedRealTime - barrier.getD 0 = state.withoutBarriers

/-- The scaled timeout is added as it is: the largest `long` is not reached, and nothing is rounded. -/
def AddsExactly (virtualTimeSpeedup globalScalingFactor : ℚ) (time : Int64) (timeout : Int) : Prop :=
  ¬ reachesMax virtualTimeSpeedup globalScalingFactor time.toInt timeout ∧
    ∃ added : Int, scaled virtualTimeSpeedup globalScalingFactor timeout = added ∧
      toFloat (toFloat time.toInt + added) = (time.toInt + added : Int) ∧
      -2 ^ 63 ≤ time.toInt + added ∧ time.toInt + added ≤ LLONG_MAX

/-- A time-scaled thread that runs is signalled only after some progress, updates its time through the
    manager only then and before a wrapped wait, does not wait, do I/O or yield in VEX, and is not
    interrupted. The timeout of its wrapped wait is added exactly, with the barrier and without it. One
    that does not run makes no progress and is not pushed into the queue again. -/
def Regular (slots : Nat → Int64) (state : VexThreadState) : Action → Prop
  | .updateThreadLocalTimeSinceLastResumeTo _ => True
  | .setCurrentThreadVT timeDiff => state.timeScaled → timeDiff ≤ 0
  | .onThreadYield _ _ | .onReplacedWaiting _ _ _ | .setIoThread _ => ¬ state.timeScaled
  | .suspendCurrentThread => state.timeScaled → state.isRunning
  | .suspendCurrentThreadAlreadyInList | .setRunningThread _ _ | .onInterrupt _
  | .onWrappedWaitingInterrupt _ => state.timeScaled → ¬ state.isRunning
  | .setRunningThreadRefused _ alreadyInRunnable => state.timeScaled → alreadyInRunnable ∧ ¬ state.isRunning
  | .startTimeScaling _ | .endTimeScaling => True
  | .startTimeScalingRefused alreadyInRunnable => alreadyInRunnable
  | .onSignalledFromScheduler timeDiff _ => state.timeScaled → 0 < timeDiff
  | .onWrappedWaitingStart virtualTimeSpeedup globalScalingFactor timeout timeDiff => state.timeScaled →
    0 < timeDiff ∧ ∀ timeout' ∈ timeout, timeout' ≠ 0 →
      AddsExactly virtualTimeSpeedup globalScalingFactor state.estimatedRealTime timeout'.toInt ∧
      AddsExactly virtualTimeSpeedup globalScalingFactor
        (state.estimatedRealTime - slots state.threadCurrentlyControllingManager) timeout'.toInt
  | .onWrappedWaitingEnd _ timeDiff | .suspendLooseCurrentThread timeDiff => state.timeScaled → timeDiff ≤ 0

/-- Actions are regular, and no time slot changes under a time-scaled thread that runs. -/
def Steady (state : State Thread) (event : Event Thread) : Prop :=
  match event with
  | .act thread action => Regular state.schedulerTimeslot (state.threads thread) action
  | _ => ∀ managerId timeslot, state.newTimeslot event = some (managerId,timeslot) → ∀ thread,
    (state.threads thread).timeScaled → (state.threads thread).isRunning →
    (state.threads thread).threadCurrentlyControllingManager = managerId → timeslot = state.schedulerTimeslot managerId

/-! ## One action -/

/-- The barrier is the one that is left, and the run time is ahead by just it. -/
private def Holds (barrier : Option Int64) (state : VexThreadState) : Prop :=
  outstanding state.barriers = some barrier ∧ state.estimatedRealTime - barrier.getD 0 = state.withoutBarriers

variable {state : VexThreadState} {barrier : Option Int64}

private theorem holds_set (bare : Holds none state) (slot : Int64) :
    Holds (some slot) (state.setSynchronizationBarrierTime slot) := by
  obtain ⟨left,ahead⟩ := bare
  refine ⟨by simp [VexThreadState.setSynchronizationBarrierTime,outstanding,left],?_⟩
  simp only [VexThreadState.setSynchronizationBarrierTime,Option.getD_some,Option.getD_none] at ahead ⊢
  grind

private theorem holds_clear {slot : Int64} (holds : Holds (some slot) state) :
    Holds none (state.clearSynchronizationBarrierTime slot) := by
  obtain ⟨left,ahead⟩ := holds
  refine ⟨by simp [VexThreadState.clearSynchronizationBarrierTime,outstanding,left],?_⟩
  simp only [VexThreadState.clearSynchronizationBarrierTime,Option.getD_some,Option.getD_none] at ahead ⊢
  grind

private theorem holds_addTime (holds : Holds barrier state) (timeAdded : Int64) : Holds barrier (state.addTime timeAdded) := by
  refine ⟨holds.1,?_⟩
  have ahead := holds.2
  simp only [VexThreadState.addTime]
  grind

/-- Without a barrier both times are the same. -/
private theorem holds_addTimeout_bare (bare : Holds none state) (virtualTimeSpeedup globalScalingFactor : ℚ)
    (timeout : Option Int64) : Holds none (state.addTimeout virtualTimeSpeedup globalScalingFactor timeout) := by
  refine ⟨bare.1,?_⟩
  have ahead := bare.2
  simp only [VexThreadState.addTimeout,Option.getD_none,Int64.sub_zero] at ahead ⊢
  rw [ahead]

private theorem waited_of_addsExactly {virtualTimeSpeedup globalScalingFactor : ℚ} {time timeout : Int64}
    (nonzero : timeout ≠ 0) (exactly : AddsExactly virtualTimeSpeedup globalScalingFactor time timeout.toInt) :
    ∃ added : Int, scaled virtualTimeSpeedup globalScalingFactor timeout.toInt = added ∧
      waited virtualTimeSpeedup globalScalingFactor (some timeout) time = time + Int64.ofInt added := by
  obtain ⟨below,added,isScaled,sum,least,most⟩ := exactly
  refine ⟨added,isScaled,?_⟩
  have some' : timeout.toInt ≠ 0 := fun zero => nonzero (Int64.toInt_inj.mp zero)
  have inRange : toLongLong ((time.toInt + added : Int) : ℚ) = Int64.ofInt (time.toInt + added) := by
    unfold LLONG_MAX at most
    rw [toLongLong,Floats.truncated_intCast,if_pos (by omega)]
  simp only [waited,Timers.updateTimesBeforeWaitingWithTimeout,if_neg some',if_neg below,Timers.setEstimatedRealTime,
    isScaled,sum,inRange,Int64.ofInt_toInt,Int64.ofInt_add]

/-- What is added exactly to both times is the same. -/
private theorem holds_addTimeout {slot : Int64} (holds : Holds (some slot) state) {virtualTimeSpeedup globalScalingFactor : ℚ}
    {timeout : Option Int64} (exactly : ∀ timeout' ∈ timeout, timeout' ≠ 0 →
      AddsExactly virtualTimeSpeedup globalScalingFactor state.estimatedRealTime timeout'.toInt ∧
      AddsExactly virtualTimeSpeedup globalScalingFactor (state.estimatedRealTime - slot) timeout'.toInt) :
    Holds (some slot) (state.addTimeout virtualTimeSpeedup globalScalingFactor timeout) := by
  refine ⟨holds.1,?_⟩
  have ahead := holds.2
  simp only [VexThreadState.addTimeout,Option.getD_some] at ahead ⊢
  rw [← ahead]
  cases timeout with
  | none => rfl
  | some timeout =>
    by_cases zero : timeout = 0
    · simp only [waited,Timers.updateTimesBeforeWaitingWithTimeout,Timers.setTimeout,zero,Int64.toInt_zero,if_true,
        Int64.ofInt_toInt]
    · obtain ⟨withBarrier,without⟩ := exactly timeout rfl zero
      obtain ⟨added,isScaled,sum⟩ := waited_of_addsExactly zero withBarrier
      obtain ⟨added',isScaled',sum'⟩ := waited_of_addsExactly zero without
      obtain rfl : added = added' := by exact_mod_cast isScaled.symm.trans isScaled'
      rw [sum,sum']
      grind

private theorem holds_leap (bare : Holds none state) (time : Int64) : Holds none (state.leapForwardTo time) := by
  refine ⟨bare.1,?_⟩
  have ahead := bare.2
  simp only [VexThreadState.leapForwardTo,Option.getD_none,Int64.sub_zero] at ahead ⊢
  rw [ahead]

private theorem holds_setEstimated (bare : Holds none state) (time : Int64) : Holds none (state.setEstimatedRealTime time) :=
  ⟨bare.1,by simp [VexThreadState.setEstimatedRealTime]⟩

/-- The other fields do not matter. -/
private theorem holds_of_same {other : VexThreadState} (holds : Holds barrier state)
    (time : other.estimatedRealTime = state.estimatedRealTime) (free : other.withoutBarriers = state.withoutBarriers)
    (barriers : other.barriers = state.barriers) : Holds barrier other := by
  refine ⟨?_,?_⟩
  · rw [barriers]
    exact holds.1
  · rw [time,free]
    exact holds.2

/-- The barrier of a thread between two actions: that of its manager's time slot, if it is scaled and runs. -/
private def due (slots : Nat → Int64) (state : VexThreadState) : Option Int64 :=
  if state.timeScaled && state.isRunning then some (slots state.threadCurrentlyControllingManager) else none

private def Matches (slots : Nat → Int64) (state : VexThreadState) : Prop := Holds (due slots state) state

/-- No barrier is due to a thread that is not scaled or does not run. -/
private theorem matches_bare {slots : Nat → Int64} (bare : Holds none state)
    (rests : state.timeScaled = true → state.isRunning = false) : Matches slots state := by
  by_cases scaled : state.timeScaled = true
  · simpa [Matches,due,rests scaled] using bare
  · simpa [Matches,due,scaled] using bare

private theorem matches_stopped {slots : Nat → Int64} (bare : Holds none state) (stopped : state.isRunning = false) :
    Matches slots state := matches_bare bare fun _ => stopped

/-- An update through the manager takes the barrier off a scaled thread. -/
private theorem holds_update {slot : Int64} (holds : Holds (if state.timeScaled then some slot else none) state) (timeDiff : Int64) :
    Holds none (state.locklessUpdateTimeBy slot timeDiff) := by
  unfold VexThreadState.locklessUpdateTimeBy
  refine holds_addTime ?_ timeDiff
  split at holds
  · next scaled =>
    rw [if_pos scaled]
    exact holds_clear holds
  · next unscaled =>
    rw [if_neg unscaled]
    exact holds

private theorem holds_running {slots : Nat → Int64} (fits : Matches slots state)
    (runs : state.timeScaled = true → state.isRunning = true) :
    Holds (if state.timeScaled then some (slots state.threadCurrentlyControllingManager) else none) state := by
  by_cases scaled : state.timeScaled = true
  · simpa [Matches,due,scaled,runs scaled] using fits
  · simpa [Matches,due,scaled] using fits

private theorem holds_stopped {slots : Nat → Int64} (fits : Matches slots state)
    (rests : state.timeScaled = true → state.isRunning = false) : Holds none state := by
  cases scaled : state.timeScaled with
  | false => simpa [Matches,due,scaled] using fits
  | true => simpa [Matches,due,scaled,rests scaled] using fits

private theorem matches_unscaled {slots : Nat → Int64} (bare : Holds none state) (unscaled : state.timeScaled = false) :
    Matches slots state := matches_bare bare fun scaled => by simp [unscaled] at scaled

private theorem matches_setRunning {slots : Nat → Int64} (bare : Holds none state) (managerId : Nat) (globalTime : Int64) :
    Matches slots (state.setRunningThread managerId (slots managerId) globalTime) := by
  have leapt : Holds none (((state.setManager managerId).setRunning true).leapForwardTo globalTime) :=
    holds_leap (holds_of_same bare rfl rfl rfl) globalTime
  cases scaled : state.timeScaled with
  | false =>
    have same : state.setRunningThread managerId (slots managerId) globalTime =
        ((state.setManager managerId).setRunning true).leapForwardTo globalTime := by
      simp [VexThreadState.setRunningThread,VexThreadState.leapForwardTo,VexThreadState.setRunning,VexThreadState.setManager,
        scaled]
    rw [same]
    exact matches_unscaled leapt scaled
  | true =>
    have same : state.setRunningThread managerId (slots managerId) globalTime =
        (((state.setManager managerId).setRunning true).leapForwardTo globalTime).setSynchronizationBarrierTime
          (slots managerId) := by
      simp [VexThreadState.setRunningThread,VexThreadState.leapForwardTo,VexThreadState.setRunning,VexThreadState.setManager,
        scaled]
    rw [same]
    have barrier : due slots ((((state.setManager managerId).setRunning true).leapForwardTo
        globalTime).setSynchronizationBarrierTime (slots managerId)) = some (slots managerId) := by
      simp [due,VexThreadState.setSynchronizationBarrierTime,VexThreadState.leapForwardTo,VexThreadState.setRunning,
        VexThreadState.setManager,scaled]
    rw [Matches,barrier]
    exact holds_set leapt _

/-- Without progress an update through the manager changes nothing. -/
private theorem setCurrentThreadVT_idle {slot timeDiff : Int64} (idle : timeDiff ≤ 0) :
    state.setCurrentThreadVT slot timeDiff = state := by
  simp [VexThreadState.setCurrentThreadVT,idle]

private theorem holds_addIf (holds : Holds barrier state) (timeAdded : Int64) :
    Holds barrier (if 0 < timeAdded then state.addTime timeAdded else state) := by
  split
  · exact holds_addTime holds timeAdded
  · exact holds

/-- Progress of a running thread takes its barrier off. -/
private theorem holds_progress {slots : Nat → Int64} {timeDiff : Int64} (fits : Matches slots state)
    (runs : state.timeScaled = true → state.isRunning = true) (progress : state.timeScaled = true → 0 < timeDiff) :
    Holds none (state.setCurrentThreadVT (slots state.threadCurrentlyControllingManager) timeDiff) := by
  unfold VexThreadState.setCurrentThreadVT
  split
  · exact holds_update (holds_running fits runs) timeDiff
  · next idle =>
    cases scaled : state.timeScaled with
    | false => simpa [Matches,due,scaled] using fits
    | true => exact absurd (progress scaled) idle

/-- A thread without a barrier that makes no progress while it is scaled still has none. -/
private theorem holds_idle {slot timeDiff : Int64} (bare : Holds none state)
    (idle : state.timeScaled = true → timeDiff ≤ 0) : Holds none (state.setCurrentThreadVT slot timeDiff) := by
  cases scaled : state.timeScaled with
  | true => rwa [setCurrentThreadVT_idle (idle scaled)]
  | false =>
    unfold VexThreadState.setCurrentThreadVT
    split
    · exact holds_update (by simpa [scaled] using bare) timeDiff
    · exact bare

private theorem setCurrentThreadVT_fields (slot timeDiff : Int64) :
    (state.setCurrentThreadVT slot timeDiff).timeScaled = state.timeScaled ∧
    (state.setCurrentThreadVT slot timeDiff).isRunning = state.isRunning ∧
    (state.setCurrentThreadVT slot timeDiff).threadCurrentlyControllingManager = state.threadCurrentlyControllingManager := by
  unfold VexThreadState.setCurrentThreadVT VexThreadState.locklessUpdateTimeBy
  split
  · split <;> exact ⟨rfl,rfl,rfl⟩
  · exact ⟨rfl,rfl,rfl⟩

private theorem matches_idle {slots : Nat → Int64} {slot timeDiff : Int64} (bare : Holds none (state.setCurrentThreadVT slot timeDiff))
    (rests : state.timeScaled = true → state.isRunning = false) : Matches slots (state.setCurrentThreadVT slot timeDiff) := by
  obtain ⟨sameScaled,sameRuns,-⟩ := @setCurrentThreadVT_fields state slot timeDiff
  exact matches_bare bare fun scaled => sameRuns.trans (rests (sameScaled.symm.trans scaled))

private theorem runs_of_enabled (enabled : (state.isRunning || !state.timeScaled) = true) (scaled : state.timeScaled = true) :
    state.isRunning = true := by
  simpa [scaled] using enabled

private theorem rests_of_enabled (enabled : (!state.isRunning || !state.timeScaled) = true) (scaled : state.timeScaled = true) :
    state.isRunning = false := by
  simpa [scaled] using enabled

/-- A regular action leaves its thread with the barrier that is due. -/
private theorem perform_matches {slots : Nat → Int64} {action : Action} (fits : Matches slots state)
    (enabled : action.enabled state = true) (regular : Regular slots state action) :
    Matches slots (action.perform slots state) := by
  cases action with
  | updateThreadLocalTimeSinceLastResumeTo timeAdded =>
    have same : due slots (if 0 < timeAdded then state.addTime timeAdded else state) = due slots state := by
      split <;> rfl
    rw [Action.perform,Matches,same]
    exact holds_addIf fits timeAdded
  | setCurrentThreadVT timeDiff =>
    cases scaled : state.timeScaled with
    | true => rwa [Action.perform,setCurrentThreadVT_idle (regular scaled)]
    | false =>
      have bare : Holds none (state.setCurrentThreadVT (slots state.threadCurrentlyControllingManager) timeDiff) :=
        holds_idle (holds_stopped fits fun isScaled => by simp [scaled] at isScaled) regular
      exact matches_unscaled bare ((setCurrentThreadVT_fields _ _).1.trans scaled)
  | onThreadYield timeDiff highest =>
    have unscaled : state.timeScaled = false := by simpa [Regular] using regular
    have bare : Holds none state := holds_stopped fits fun isScaled => by simp [unscaled] at isScaled
    refine matches_unscaled (holds_leap (holds_update (by simpa [unscaled] using bare) timeDiff) _) ?_
    simp [Action.perform,VexThreadState.leapForwardTo,VexThreadState.locklessUpdateTimeBy,VexThreadState.addTime,unscaled]
  | suspendCurrentThread =>
    refine matches_stopped ?_ rfl
    simp only [Action.perform,VexThreadState.setSuspendedAndPushToRunnables]
    split
    · next scaled =>
      have holds := holds_running fits regular
      rw [if_pos scaled] at holds
      exact holds_of_same (holds_clear holds) rfl rfl rfl
    · next unscaled =>
      exact holds_of_same (holds_stopped fits fun isScaled => absurd isScaled unscaled) rfl rfl rfl
  | suspendCurrentThreadAlreadyInList =>
    have bare := holds_stopped fits fun scaled => by simpa using regular scaled
    exact matches_stopped (holds_of_same bare rfl rfl rfl) rfl
  | setRunningThread managerId globalTime =>
    exact matches_setRunning (holds_stopped fits fun scaled => by simpa using regular scaled) managerId globalTime
  | setRunningThreadRefused managerId alreadyInRunnable =>
    have bare := holds_stopped fits fun scaled => by simpa using (regular scaled).2
    simp only [Action.perform]
    split
    · exact matches_stopped (holds_of_same bare rfl rfl rfl) rfl
    · next absent =>
      refine matches_stopped ?_ rfl
      have unscaled : ¬ state.timeScaled = true := fun scaled => absent (regular scaled).1
      rw [VexThreadState.setSuspendedAndPushToRunnables,if_neg unscaled]
      exact holds_of_same bare rfl rfl rfl
  | startTimeScaling globalTime =>
    have unscaled : state.timeScaled = false := by simpa [Action.enabled] using enabled
    have bare : Holds none state := holds_stopped fits fun scaled => by simp [unscaled] at scaled
    have scaledBare : Holds none (state.setTimeScaled true) := holds_of_same bare rfl rfl rfl
    exact @matches_setRunning _ slots scaledBare state.threadCurrentlyControllingManager globalTime
  | startTimeScalingRefused alreadyInRunnable =>
    have unscaled : state.timeScaled = false := by simpa [Action.enabled] using enabled
    have bare : Holds none state := holds_stopped fits fun scaled => by simp [unscaled] at scaled
    have inList : alreadyInRunnable = true := regular
    refine matches_stopped ?_ (by simp [Action.perform,inList,VexThreadState.setSuspended,VexThreadState.setRunning])
    simp only [Action.perform,inList,↓reduceIte]
    exact holds_of_same bare rfl rfl rfl
  | endTimeScaling =>
    obtain ⟨runs,scaled⟩ : state.isRunning = true ∧ state.timeScaled = true := by simpa [Action.enabled] using enabled
    have holds := holds_running fits fun _ => runs
    rw [if_pos scaled] at holds
    exact matches_unscaled (holds_of_same (holds_clear holds) rfl rfl rfl) rfl
  | onSignalledFromScheduler timeDiff intention =>
    have runs := runs_of_enabled enabled
    have bare := holds_progress fits runs regular
    obtain ⟨sameScaled,sameRuns,sameManager⟩ := @setCurrentThreadVT_fields state
      (slots state.threadCurrentlyControllingManager) timeDiff
    cases intention with
    | toBeSuspended | toBeDisregarded => exact matches_stopped (holds_of_same bare rfl rfl rfl) rfl
    | toKeepOnRunning =>
      simp only [Action.perform,VexThreadState.onIntentionToKeepOnRunning,sameScaled,sameManager]
      split
      · next scaled =>
        have barrier : due slots ((state.setCurrentThreadVT (slots state.threadCurrentlyControllingManager)
            timeDiff).setSynchronizationBarrierTime (slots state.threadCurrentlyControllingManager)) =
            some (slots state.threadCurrentlyControllingManager) := by
          simp [due,VexThreadState.setSynchronizationBarrierTime,sameScaled,sameRuns,sameManager,scaled,runs scaled]
        rw [Matches,barrier]
        exact holds_set bare _
      · next unscaled => exact matches_unscaled bare (by simpa [sameScaled] using unscaled)
  | onReplacedWaiting virtualTimeSpeedup globalScalingFactor timeout =>
    have unscaled : state.timeScaled = false := by simpa [Regular] using regular
    have bare : Holds none state := holds_stopped fits fun isScaled => by simp [unscaled] at isScaled
    have waits := holds_addTimeout_bare bare virtualTimeSpeedup globalScalingFactor timeout
    exact matches_stopped (holds_of_same waits rfl rfl rfl) rfl
  | setIoThread timeAdded =>
    have unscaled : state.timeScaled = false := by simpa [Regular] using regular
    have bare : Holds none state := holds_stopped fits fun isScaled => by simp [unscaled] at isScaled
    exact matches_stopped (holds_of_same (holds_addTime bare timeAdded) rfl rfl rfl) rfl
  | onWrappedWaitingStart virtualTimeSpeedup globalScalingFactor timeout timeDiff =>
    have runs := runs_of_enabled enabled
    have added : Matches slots (state.addTimeout virtualTimeSpeedup globalScalingFactor timeout) := by
      have holds := holds_running fits runs
      cases isScaled : state.timeScaled with
      | false =>
        rw [if_neg (by simp [isScaled])] at holds
        exact matches_unscaled (holds_addTimeout_bare holds virtualTimeSpeedup globalScalingFactor timeout) isScaled
      | true =>
        rw [if_pos isScaled] at holds
        have barrier : due slots (state.addTimeout virtualTimeSpeedup globalScalingFactor timeout) =
            some (slots state.threadCurrentlyControllingManager) := by
          simp [due,VexThreadState.addTimeout,isScaled,runs isScaled]
        rw [Matches,barrier]
        exact holds_addTimeout holds (regular isScaled).2
    have bare : Holds none ((state.addTimeout virtualTimeSpeedup globalScalingFactor timeout).setCurrentThreadVT
        (slots (state.addTimeout virtualTimeSpeedup globalScalingFactor timeout).threadCurrentlyControllingManager)
        timeDiff) := holds_progress added runs fun isScaled => (regular isScaled).1
    exact matches_stopped (holds_of_same bare rfl rfl rfl) rfl
  | onWrappedWaitingEnd globalTime timeDiff =>
    have rests := rests_of_enabled enabled
    have bare : Holds none ((state.leapForwardTo globalTime).setCurrentThreadVT
        (slots state.threadCurrentlyControllingManager) timeDiff) :=
      holds_idle (holds_leap (holds_stopped fits rests) globalTime) regular
    exact matches_idle bare rests
  | suspendLooseCurrentThread timeDiff =>
    have rests := rests_of_enabled enabled
    have bare : Holds none (state.setCurrentThreadVT (slots state.threadCurrentlyControllingManager) timeDiff) :=
      holds_idle (holds_stopped fits rests) regular
    exact matches_idle bare rests
  | onInterrupt interruptionTime =>
    have rests : state.timeScaled = true → state.isRunning = false := fun scaled => by simpa using regular scaled
    have bare := holds_setEstimated (holds_stopped fits rests) interruptionTime
    exact matches_bare bare rests
  | onWrappedWaitingInterrupt interruptionTime =>
    have bare := holds_setEstimated (holds_stopped fits fun scaled => by simpa using regular scaled) interruptionTime
    exact matches_stopped (holds_of_same bare rfl rfl rfl) rfl

/-! ## Runs -/

/-- Every thread has the barrier that is due. -/
private def Settled (state : State Thread) : Prop := ∀ thread, Matches state.schedulerTimeslot (state.threads thread)

private theorem settled_initial (times : Thread → Int64) (timeslots defaults : Nat → Int64) :
    Settled (initial times timeslots defaults) :=
  fun thread => ⟨rfl,by simp [initial,due]⟩

private theorem step_settled {state next : State Thread} {event : Event Thread} (settled : Settled state)
    (steady : Steady state event) (stepped : step state event = some next) : Settled next := by
  have changed : state.newTimeslot event = none ∧ next = state ∨ (∃ managerId timeslot,
      state.newTimeslot event = some (managerId,timeslot) ∧ next = state.setTimeslot managerId timeslot) ∨
      ∃ thread action, event = .act thread action := by
    cases event with
    | act thread action => exact .inr (.inr ⟨thread,action,rfl⟩)
    | _ =>
      simp only [step] at stepped
      split at stepped
      · next unchanged =>
        cases stepped
        exact .inl ⟨unchanged,rfl⟩
      · next managerId timeslot found =>
        cases stepped
        exact .inr (.inl ⟨managerId,timeslot,found,rfl⟩)
  rcases changed with ⟨-,rfl⟩ | ⟨managerId,timeslot,found,rfl⟩ | ⟨thread,action,rfl⟩
  · exact settled
  · intro thread
    -- a thread whose barrier is due has its manager's time slot, which stays
    have same : due (state.setTimeslot managerId timeslot).schedulerTimeslot (state.threads thread) =
        due state.schedulerTimeslot (state.threads thread) := by
      by_cases runs : ((state.threads thread).timeScaled && (state.threads thread).isRunning) = true
      · obtain ⟨scaled,running⟩ := Bool.and_eq_true_iff.mp runs
        simp only [due,runs,↓reduceIte,State.setTimeslot,Option.some.injEq]
        by_cases own : (state.threads thread).threadCurrentlyControllingManager = managerId
        · have kept : timeslot = state.schedulerTimeslot managerId := by
            cases event with
            | act thread action => cases found
            | _ => exact steady managerId timeslot found thread scaled running own
          rw [own,Function.update_self,kept]
        · rw [Function.update_of_ne own]
      · simp [due,runs]
    have kept := settled thread
    rwa [Matches,← same] at kept
  · simp only [step,Option.ite_none_right_eq_some,Option.some.injEq] at stepped
    obtain ⟨enabled,rfl⟩ := stepped
    intro other
    by_cases same : other = thread
    · subst same
      simpa using perform_matches (settled other) enabled steady
    · simpa [same] using settled other

/-- A thread of method-scaled time from its first core to its last signal. -/
private def scaledThread : List Action :=
  [.setRunningThread 0 10,.startTimeScaling 10,.updateThreadLocalTimeSinceLastResumeTo 4,
    .onSignalledFromScheduler 3 .toKeepOnRunning,.suspendCurrentThread,.setRunningThread 1 20,
    .onWrappedWaitingStart 1 1 (some 1000) 6,.setRunningThread 0 2000,.onSignalledFromScheduler 5 .toBeSuspended]

end Vexjine.SynchronizationBarriers
