import Vexjine.Floats
import Vexjine.VexThreadState

/-!
# The time of I/O operations

`IoProtocolNormal` learns the time of an I/O operation when it ends, or adds its
prediction when it starts, extends the prediction while the operation is running, and
corrects it in the end. The numbers of the source wrap around.
-/

namespace Vexjine.IoCorrections
open Floats

/-! ## The thread -/

/-- The thread's state, timers and I/O handler. -/
structure IoThread where
  currentState : Code
  estimatedRealTime : Int64
  virtualTime : Int64
  localTimeSinceLastResume : Int64
  timeout : Int64
  virtualTimeSpeedup : ℚ
  timesIoPredictionWasAddedToEstimatedTime : UInt64
  lastIoPrediction : Int64

namespace IoThread
variable (thread : IoThread)

def addElapsedTime (time : Int64) : IoThread :=
  { thread with
    virtualTime := thread.virtualTime + time
    estimatedRealTime := thread.estimatedRealTime + time }

def leapForwardBy (time : Int64) : IoThread :=
  { thread with estimatedRealTime := thread.estimatedRealTime + time }

def leapForwardTo (currentTime : Int64) : IoThread :=
  if thread.estimatedRealTime < currentTime then { thread with estimatedRealTime := currentTime } else thread

/-- The global scaling factor is not used. -/
def addLocalIoTime (timeDiff : Int64) : IoThread :=
  let timeAdded := toLongLong (toFloat (toFloat timeDiff.toInt * thread.virtualTimeSpeedup))
  { thread with
    estimatedRealTime := thread.estimatedRealTime + timeAdded
    localTimeSinceLastResume := thread.localTimeSinceLastResume + timeAdded }

def rollbackFromTimeOutValue : IoThread :=
  { thread with
    estimatedRealTime := thread.estimatedRealTime - thread.timeout
    timeout := -1 }

def extendPredictionPeriod : Int64 × IoThread :=
  let times := thread.timesIoPredictionWasAddedToEstimatedTime * 2
  ((times * thread.lastIoPrediction.toUInt64).toInt64,
    { thread with timesIoPredictionWasAddedToEstimatedTime := times })

def getTotalTimePredicted : Int64 :=
  ((2 * thread.timesIoPredictionWasAddedToEstimatedTime - 1) * thread.lastIoPrediction.toUInt64).toInt64

def addPredictionToEstimatedRealTime : IoThread :=
  { thread.addElapsedTime thread.lastIoPrediction with timesIoPredictionWasAddedToEstimatedTime := 1 }

def invalidateIoPrediction : IoThread :=
  thread.extendPredictionPeriod.2.leapForwardBy thread.extendPredictionPeriod.1

def updateEstimatedRealTimeAfterIoPrediction (actualIoDuration : Int64) : IoThread :=
  thread.leapForwardBy (actualIoDuration - thread.getTotalTimePredicted)

/-- `setIoAndCheckIfOperationShouldBlockSimulationProgress`, without its answer. -/
def setIo (learning : Bool) : IoThread :=
  if learning then
    let learner := { thread with currentState := .learningIo }
    if thread.timeout ≠ -1 then learner.leapForwardBy thread.timeout else learner
  else { thread with currentState := .inIo }

end IoThread

/-! ## The protocol -/

namespace IoProtocolNormal
variable (thread : IoThread)

/-- `resumedAt`: the global time at which a scaled thread goes on, if it is suspended first. -/
def onStart (resumedAt : Option Int64) : IoThread :=
  if thread.lastIoPrediction ≠ 0 then
    let predicted := thread.addPredictionToEstimatedRealTime
    match resumedAt with
    | some globalTime => (if 1 < thread.virtualTimeSpeedup then predicted.leapForwardTo globalTime else predicted).setIo false
    | none => predicted.setIo false
  else thread.setIo true

/-- Up to the suspension, which the paths have in common. -/
def onEnd (actualIoDuration : Int64) : IoThread :=
  if thread.currentState = .learningIo then
    if thread.timeout ≠ -1 then thread.rollbackFromTimeOutValue.addElapsedTime actualIoDuration
    else thread.addLocalIoTime actualIoDuration
  else if thread.currentState = .inIo then thread.updateEstimatedRealTimeAfterIoPrediction actualIoDuration
  else thread

end IoProtocolNormal

/-! ## Corrections -/

namespace IoThread
variable (thread : IoThread)

/-- Each extension adds as much to the run time as to the total. -/
private theorem invalidateIoPrediction_ahead :
    thread.invalidateIoPrediction.estimatedRealTime - thread.invalidateIoPrediction.getTotalTimePredicted =
      thread.estimatedRealTime - thread.getTotalTimePredicted := by
  simp only [invalidateIoPrediction,extendPredictionPeriod,leapForwardBy,getTotalTimePredicted,UInt64.toInt64_mul,
    UInt64.toInt64_sub,UInt64.toInt64_ofNat]
  grind -lia

/-- By induction on the number of extensions. -/
private theorem invalidations_ahead (invalidations : Nat) :
    ∀ thread : IoThread, ((invalidateIoPrediction^[invalidations]) thread).estimatedRealTime -
      ((invalidateIoPrediction^[invalidations]) thread).getTotalTimePredicted =
        thread.estimatedRealTime - thread.getTotalTimePredicted := by
  induction invalidations with
  | zero =>
    intro thread
    rfl
  | succ invalidations ih =>
    intro thread
    rw [Function.iterate_succ_apply,ih,invalidateIoPrediction_ahead]

private theorem updateEstimatedRealTime_ahead (invalidations : Nat) (actualIoDuration : Int64) :
    (((invalidateIoPrediction^[invalidations]) thread).updateEstimatedRealTimeAfterIoPrediction
        actualIoDuration).estimatedRealTime =
      thread.estimatedRealTime - thread.getTotalTimePredicted + actualIoDuration := by
  have ahead := invalidations_ahead invalidations thread
  simp only [updateEstimatedRealTimeAfterIoPrediction,leapForwardBy]
  grind -lia

private theorem getTotalTimePredicted_once (once : thread.timesIoPredictionWasAddedToEstimatedTime = 1) :
    thread.getTotalTimePredicted = thread.lastIoPrediction := by
  have factor : (2 * 1 - 1 : UInt64).toInt64 = 1 := by decide
  have same : thread.lastIoPrediction.toUInt64.toInt64 = thread.lastIoPrediction := rfl
  rw [getTotalTimePredicted,once,UInt64.toInt64_mul,factor,same]
  grind -lia

private theorem addPrediction_ahead :
    thread.addPredictionToEstimatedRealTime.estimatedRealTime - thread.addPredictionToEstimatedRealTime.getTotalTimePredicted =
      thread.estimatedRealTime := by
  rw [getTotalTimePredicted_once _ rfl]
  simp only [addPredictionToEstimatedRealTime,addElapsedTime]
  grind -lia

/-- By induction on the number of extensions, each of which doubles the times the prediction was added. -/
private theorem getTotalTimePredicted_iterate (invalidations : Nat) :
    ∀ thread : IoThread, ((invalidateIoPrediction^[invalidations]) thread).getTotalTimePredicted =
      (2 ^ (invalidations + 1) * thread.timesIoPredictionWasAddedToEstimatedTime.toInt64 - 1) *
        thread.lastIoPrediction := by
  induction invalidations with
  | zero =>
    intro thread
    rw [Int64.pow_succ,Int64.pow_zero,Int64.one_mul]
    simp [getTotalTimePredicted]
  | succ invalidations ih =>
    intro thread
    rw [Function.iterate_succ_apply,ih,Int64.pow_succ _ (invalidations + 1)]
    simp [invalidateIoPrediction,extendPredictionPeriod,leapForwardBy]
    grind -lia

/-- However often the prediction was extended, and whatever it was, the correction leaves the start of the
    operation plus its actual duration. Before it, the extensions have added 2, 4, 8 times the prediction and so on. -/
theorem updateEstimatedRealTimeAfterIoPrediction_exact (invalidations : Nat) (actualIoDuration : Int64) :
    ((invalidateIoPrediction^[invalidations]) thread.addPredictionToEstimatedRealTime).estimatedRealTime =
      thread.estimatedRealTime + (2 ^ (invalidations + 1) - 1) * thread.lastIoPrediction ∧
    (((invalidateIoPrediction^[invalidations]) thread.addPredictionToEstimatedRealTime).updateEstimatedRealTimeAfterIoPrediction
        actualIoDuration).estimatedRealTime = thread.estimatedRealTime + actualIoDuration ∧
    (((invalidateIoPrediction^[invalidations]) thread.addPredictionToEstimatedRealTime).updateEstimatedRealTimeAfterIoPrediction
        actualIoDuration).estimatedRealTime.toInt =
      (thread.estimatedRealTime.toInt + actualIoDuration.toInt).bmod (2 ^ 64) := by
  have exact : (((invalidateIoPrediction^[invalidations])
      thread.addPredictionToEstimatedRealTime).updateEstimatedRealTimeAfterIoPrediction actualIoDuration).estimatedRealTime =
        thread.estimatedRealTime + actualIoDuration := by
    rw [updateEstimatedRealTime_ahead,addPrediction_ahead]
  have ahead := invalidations_ahead invalidations thread.addPredictionToEstimatedRealTime
  have total := getTotalTimePredicted_iterate invalidations thread.addPredictionToEstimatedRealTime
  have once : thread.addPredictionToEstimatedRealTime.timesIoPredictionWasAddedToEstimatedTime.toInt64 = 1 := rfl
  have same : thread.addPredictionToEstimatedRealTime.lastIoPrediction = thread.lastIoPrediction := rfl
  rw [once,same,Int64.mul_one] at total
  rw [total,addPrediction_ahead] at ahead
  refine ⟨?_,exact,by rw [exact,Int64.toInt_add]⟩
  rw [← ahead,Int64.sub_add_cancel]

end IoThread

/-! ## The paths of an operation -/

section Paths
variable (thread : IoThread)

/-- How far the run time and the CPU time are moved. -/
def advance (before after : IoThread) : Int64 × Int64 :=
  (after.estimatedRealTime - before.estimatedRealTime,after.virtualTime - before.virtualTime)

/-- An operation without a prediction. -/
def learnt (timeout actualIoDuration : Int64) : Int64 × Int64 :=
  let caller := { thread with lastIoPrediction := 0,timeout }
  advance caller (IoProtocolNormal.onEnd (IoProtocolNormal.onStart caller none) actualIoDuration)

/-- An operation with a prediction that is extended while it is running. -/
def predicted (prediction : Int64) (resumedAt : Option Int64) (invalidations : Nat) (actualIoDuration : Int64) :
    Int64 × Int64 :=
  let caller := { thread with lastIoPrediction := prediction }
  let started := IoProtocolNormal.onStart caller resumedAt
  advance caller (IoProtocolNormal.onEnd ((IoThread.invalidateIoPrediction^[invalidations]) started) actualIoDuration)

/-- Whether a scaled thread is resumed later than its prediction says. -/
def Leaps (prediction : Int64) (resumedAt : Option Int64) : Prop :=
  1 < thread.virtualTimeSpeedup ∧ ∃ globalTime ∈ resumedAt, thread.estimatedRealTime + prediction < globalTime

private theorem iterate_currentState (invalidations : Nat) :
    ∀ thread : IoThread, ((IoThread.invalidateIoPrediction^[invalidations]) thread).currentState = thread.currentState := by
  induction invalidations with
  | zero =>
    intro thread
    rfl
  | succ invalidations ih =>
    intro thread
    rw [Function.iterate_succ_apply,ih]
    rfl

private theorem iterate_virtualTime (invalidations : Nat) :
    ∀ thread : IoThread, ((IoThread.invalidateIoPrediction^[invalidations]) thread).virtualTime = thread.virtualTime := by
  induction invalidations with
  | zero =>
    intro thread
    rfl
  | succ invalidations ih =>
    intro thread
    rw [Function.iterate_succ_apply,ih]
    rfl

theorem learnt_without_timeout (actualIoDuration : Int64) : learnt thread (-1) actualIoDuration =
    (toLongLong (toFloat (toFloat actualIoDuration.toInt * thread.virtualTimeSpeedup)),0) := by
  simp [learnt,advance,IoProtocolNormal.onStart,IoProtocolNormal.onEnd,IoThread.setIo,IoThread.addLocalIoTime]
  grind -lia

theorem learnt_with_timeout {timeout : Int64} (pending : timeout ≠ -1) (actualIoDuration : Int64) :
    learnt thread timeout actualIoDuration = (actualIoDuration,actualIoDuration) := by
  simp [learnt,advance,IoProtocolNormal.onStart,IoProtocolNormal.onEnd,IoThread.setIo,pending,
    IoThread.rollbackFromTimeOutValue,IoThread.addElapsedTime,IoThread.leapForwardBy]
  grind -lia

/-- A predicted operation when it starts to run. -/
private structure Started (prediction : Int64) (resumedAt : Option Int64) (started : IoThread) : Prop where
  inIo : started.currentState = .inIo
  charged : started.virtualTime = thread.virtualTime + prediction
  total : started.getTotalTimePredicted = prediction
  inTime : started.estimatedRealTime = thread.estimatedRealTime + prediction ↔ ¬ Leaps thread prediction resumedAt

/-- By cases on whether the thread is scaled and resumed too late. -/
private theorem leapForwardTo_started {caller : IoThread} {prediction : Int64} (globalTime : Int64)
    (charged : caller.virtualTime = thread.virtualTime + prediction) (total : caller.getTotalTimePredicted = prediction)
    (time : caller.estimatedRealTime = thread.estimatedRealTime + prediction) :
    Started thread prediction (some globalTime)
      ((if 1 < thread.virtualTimeSpeedup then caller.leapForwardTo globalTime else caller).setIo false) := by
  by_cases leaps : Leaps thread prediction (some globalTime)
  · obtain ⟨scaled,_,isGlobal,late⟩ := leaps
    cases isGlobal
    have moved : globalTime ≠ thread.estimatedRealTime + prediction := by
      rintro rfl
      exact Int64.lt_irrefl late
    rw [if_pos scaled,IoThread.leapForwardTo,time,if_pos late]
    exact ⟨rfl,charged,total,iff_of_false moved (not_not_intro ⟨scaled,globalTime,rfl,late⟩)⟩
  · have unmoved : (if 1 < thread.virtualTimeSpeedup then caller.leapForwardTo globalTime else caller) = caller := by
      split
      · next scaled =>
        have early : ¬ thread.estimatedRealTime + prediction < globalTime := fun late =>
          leaps ⟨scaled,globalTime,rfl,late⟩
        rw [IoThread.leapForwardTo,time,if_neg early]
      · rfl
    rw [unmoved]
    exact ⟨rfl,charged,total,iff_of_true time leaps⟩

private theorem onStart_started {prediction : Int64} (known : prediction ≠ 0) (resumedAt : Option Int64) :
    Started thread prediction resumedAt
      (IoProtocolNormal.onStart { thread with lastIoPrediction := prediction } resumedAt) := by
  have total := IoThread.getTotalTimePredicted_once
    ({ thread with lastIoPrediction := prediction } : IoThread).addPredictionToEstimatedRealTime rfl
  simp only [IoProtocolNormal.onStart,if_pos known]
  cases resumedAt with
  | none =>
    have stays : ¬ Leaps thread prediction none := by
      rintro ⟨-,_,⟨⟩,-⟩
    exact ⟨rfl,rfl,total,iff_of_true rfl stays⟩
  | some globalTime => exact leapForwardTo_started thread globalTime rfl total rfl

/-- The extensions are taken back, and the prediction stays in the CPU time. -/
private theorem predicted_of_started {prediction : Int64} (known : prediction ≠ 0) (resumedAt : Option Int64)
    (invalidations : Nat) (actualIoDuration : Int64) :
    predicted thread prediction resumedAt invalidations actualIoDuration =
      ((IoProtocolNormal.onStart { thread with lastIoPrediction := prediction } resumedAt).estimatedRealTime -
        (thread.estimatedRealTime + prediction) + actualIoDuration,prediction) := by
  obtain ⟨inIo,charged,total,-⟩ := onStart_started thread known resumedAt
  generalize startedIs : IoProtocolNormal.onStart { thread with lastIoPrediction := prediction } resumedAt = started at *
  have running : ((IoThread.invalidateIoPrediction^[invalidations]) started).currentState = .inIo := by
    rw [iterate_currentState,inIo]
  have notLearning : ((IoThread.invalidateIoPrediction^[invalidations]) started).currentState ≠ .learningIo := by
    rw [running]
    decide
  have corrected : IoProtocolNormal.onEnd ((IoThread.invalidateIoPrediction^[invalidations]) started) actualIoDuration =
      ((IoThread.invalidateIoPrediction^[invalidations]) started).updateEstimatedRealTimeAfterIoPrediction
        actualIoDuration := by
    rw [IoProtocolNormal.onEnd,if_neg notLearning,if_pos running]
  simp only [predicted,startedIs,corrected,advance,IoThread.updateEstimatedRealTime_ahead,total]
  simp only [IoThread.updateEstimatedRealTimeAfterIoPrediction,IoThread.leapForwardBy,iterate_virtualTime,charged]
  refine Prod.ext ?_ ?_
  · dsimp only
    grind -lia
  · dsimp only
    grind -lia

/-- A prediction stays in the CPU time, to which an operation that is learnt without a timeout adds nothing:
    the paths never move the thread alike. -/
theorem paths_differ {prediction timeout : Int64} (known : prediction ≠ 0) (pending : timeout ≠ -1)
    (resumedAt : Option Int64) (invalidations : Nat) (actualIoDuration : Int64) :
    (learnt thread (-1) actualIoDuration ≠ predicted thread prediction resumedAt invalidations actualIoDuration) ∧
      (learnt thread (-1) actualIoDuration = learnt thread timeout actualIoDuration ↔ actualIoDuration = 0) ∧
      (learnt thread timeout actualIoDuration = predicted thread prediction resumedAt invalidations actualIoDuration ↔
        actualIoDuration = prediction ∧ ¬ Leaps thread prediction resumedAt) := by
  have started := onStart_started thread known resumedAt
  rw [predicted_of_started thread known,learnt_without_timeout,learnt_with_timeout thread pending]
  refine ⟨?_,?_,?_⟩
  · intro same
    exact known (Prod.mk.inj same).2.symm
  · constructor
    · intro same
      exact (Prod.mk.inj same).2.symm
    · rintro rfl
      simp [toFloat]
  · rw [← started.inTime,Prod.mk.injEq]
    constructor
    · rintro ⟨advanced,rfl⟩
      refine ⟨rfl,?_⟩
      grind -lia
    · rintro ⟨rfl,inTime⟩
      refine ⟨?_,rfl⟩
      rw [inTime]
      grind -lia

/-- An unscaled thread in an operation of 3 ns that is predicted to take 2 ns, or may time out after 5 ns. -/
private def caller : IoThread where
  currentState := .running
  estimatedRealTime := 10
  virtualTime := 10
  localTimeSinceLastResume := 0
  timeout := -1
  virtualTimeSpeedup := 1
  timesIoPredictionWasAddedToEstimatedTime := 0
  lastIoPrediction := 0

theorem caller_paths_differ : (2 : Int64) ≠ 0 ∧ (5 : Int64) ≠ -1 ∧
    learnt caller (-1) 3 ≠ predicted caller 2 none 1 3 ∧
      (learnt caller (-1) 3 = learnt caller 5 3 ↔ (3 : Int64) = 0) ∧
      (learnt caller 5 3 = predicted caller 2 none 1 3 ↔ (3 : Int64) = 2 ∧ ¬ Leaps caller 2 none) :=
  ⟨by decide,by decide,paths_differ caller (by decide) (by decide) none 1 3⟩

/-- The prediction that takes 2 ns adds them to the CPU time, the operation that is learnt nothing. -/
theorem prediction_charged_as_cpu_time : ¬ ∀ (thread : IoThread) (prediction timeout : Int64) (resumedAt : Option Int64)
    (invalidations : Nat) (actualIoDuration : Int64), prediction ≠ 0 → timeout ≠ -1 →
    learnt thread (-1) actualIoDuration = predicted thread prediction resumedAt invalidations actualIoDuration ∧
      learnt thread timeout actualIoDuration = predicted thread prediction resumedAt invalidations actualIoDuration := by
  intro claimed
  have same := (claimed caller 2 5 none 1 3 (by decide) (by decide)).1
  have charged : (learnt caller (-1) 3).2 = (predicted caller 2 none 1 3).2 := by rw [same]
  exact absurd charged (by decide)

end Paths

end Vexjine.IoCorrections
