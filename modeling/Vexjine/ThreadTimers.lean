import Vexjine.Floats
import Vexjine.VirtualTimeline

/-!
# The timers of a thread

The times that a thread keeps of itself, and how the controller of a single
timeline commits them. A thread's time is kept twice: as its estimated real time,
and as the time of its last resume with its local time since then. Durations are
those after the scaling factors have been applied, except for timeouts.
-/

namespace Vexjine.ThreadTimers
open Vexjine.VirtualTimeline
open Vexjine.Mutexes (Locking Guarded read)
open Vexjine.Floats (toFloat toLongLong)
set_option linter.unusedSimpArgs false

/-- A duration multiplied with the factors of a thread. The factors are `float` values, and so are all
    operations with them. -/
def scaled (virtualTimeSpeedup globalScalingFactor : ℚ) (duration : Int) : ℚ :=
  toFloat (toFloat (toFloat duration * virtualTimeSpeedup) * globalScalingFactor)

/-- The comparison that keeps a wait from passing the largest `long`. -/
def reachesMax (virtualTimeSpeedup globalScalingFactor : ℚ) (estimatedRealTime timeout : Int) : Prop :=
  toFloat (toFloat (longLong (LLONG_MAX - estimatedRealTime)) / toFloat (virtualTimeSpeedup * globalScalingFactor)) ≤
    toFloat timeout

instance (virtualTimeSpeedup globalScalingFactor : ℚ) (estimatedRealTime timeout : Int) :
    Decidable (reachesMax virtualTimeSpeedup globalScalingFactor estimatedRealTime timeout) :=
  inferInstanceAs (Decidable (_ ≤ _))

/-- As `resetCounters` sets them. -/
structure Timers where
  estimatedRealTime : Int := 0
  resumedLastAt : Int := 0
  localTimeSinceLastResume : Int := 0
  timeout : Int := -1
  dontUpdateToGlobalTime : Bool := false
  deriving DecidableEq

namespace Timers
variable (timers : Timers)

def setEstimatedRealTime (estimatedRealTime : Int) : Timers := { timers with estimatedRealTime }

def setResumedLastAt (resumedLastAt : Int) : Timers := { timers with resumedLastAt }

def setTimeout (timeout : Int) : Timers := { timers with timeout }

def leapForwardTo (currentTime : Int) : Timers :=
  if timers.estimatedRealTime < currentTime then { timers with estimatedRealTime := currentTime } else timers

def addElapsedTime (time : Int) : Timers := { timers with estimatedRealTime := timers.estimatedRealTime + time }

/-- `addGlobalTime` and `addLocalIoTime` move these fields in the same way. -/
def addLocalTime (timeAdded : Int) : Timers :=
  { timers.addElapsedTime timeAdded with localTimeSinceLastResume := timers.localTimeSinceLastResume + timeAdded }

def getAndResetLocalTime : Timers := { timers with localTimeSinceLastResume := 0 }

def updateTimesAfterResuming (resumingVirtualTime : Int) : Timers :=
  { timers with
    resumedLastAt := if timers.dontUpdateToGlobalTime then timers.estimatedRealTime else resumingVirtualTime
    localTimeSinceLastResume := 0 }

def getCurrentVirtualTimestampOfRunningThread : Int := timers.resumedLastAt + timers.localTimeSinceLastResume

/-- The scaled timeout is added to the time as a `float`. -/
def updateTimesBeforeWaitingWithTimeout (virtualTimeSpeedup globalScalingFactor : ℚ) (timeout : Int) : Timers :=
  if timeout = 0 then timers.setTimeout timeout
  else if reachesMax virtualTimeSpeedup globalScalingFactor timers.estimatedRealTime timeout then
    (timers.setTimeout timeout).setEstimatedRealTime LLONG_MAX
  else
    (timers.setTimeout timeout).setEstimatedRealTime (toLongLong (toFloat (toFloat timers.estimatedRealTime +
      scaled virtualTimeSpeedup globalScalingFactor timeout))).toInt

def rollbackFromTimeOutValue : Timers :=
  { timers with estimatedRealTime := timers.estimatedRealTime - timers.timeout,timeout := -1 }

end Timers

/-! ## `SingleVirtualTimelineController` -/

def commitCpuTimeProgress (timers : Timers) : Locking (Times 0) Unit :=
  Single.leapForwardTo timers.getCurrentVirtualTimestampOfRunningThread

def commitIoTimeProgress (timers : Timers) : Locking (Times 0) Unit := Single.leapForwardTo timers.estimatedRealTime

def commitTimedWaitingProgress (timers : Timers) : Locking (Times 0) Unit := Single.leapForwardTo timers.estimatedRealTime

def commitNativeWaitingProgress (timers : Timers) : Locking (Times 0) Unit :=
  Single.addTimeOfThreadExecutingAtUnknownTime timers.localTimeSinceLastResume

def updateResumingSuspendedThreadTimestamp (timers : Timers) : Locking (Times 0) Timers :=
  read fun times => timers.leapForwardTo times.globalVirtualTime

def updateResumingSuspendedThreadResumedLastTimestamp (timers : Timers) : Locking (Times 0) Timers :=
  read fun times => timers.updateTimesAfterResuming times.globalVirtualTime

def updateTimedOutWaitingThreadTimestamp (timers : Timers) : Locking (Times 0) Timers :=
  read fun times => timers.leapForwardTo times.globalVirtualTime

def updateInterruptedWaitingThreadTimestamp (timers : Timers) (interruptTime : Int) : Locking (Times 0) Timers :=
  read fun times => timers.setEstimatedRealTime
    (if interruptTime = 0 ∧ timers.dontUpdateToGlobalTime = false then times.globalVirtualTime else interruptTime)

def updateBlockedThreadTimestamp (timers : Timers) : Locking (Times 0) Timers :=
  read fun times => ((timers.leapForwardTo times.globalVirtualTime).setResumedLastAt times.globalVirtualTime).getAndResetLocalTime

/-! ## What a commit does -/

/-- The effect of a leap on a timeline whose mutex is free. -/
theorem run_leapForwardTo (times : Times 0) (forwardTime : Int) :
    (Single.leapForwardTo forwardTime : Locking (Times 0) Unit) ⟨times,false⟩ =
      some ((),⟨{ times with
        globalVirtualTime := max times.globalVirtualTime (longLong (forwardTime + times.unknownParallelTime))
        unknownParallelTime := 0 },false⟩) := by
  by_cases later : longLong (forwardTime + times.unknownParallelTime) > times.globalVirtualTime
  · simp [Single.leapForwardTo,later,Times.setGlobal,Times.setUnknown,max_eq_right later.le]
  · simp [Single.leapForwardTo,later,Times.setUnknown,max_eq_left (not_lt.mp later)]

theorem run_addTimeOfThreadExecutingAtUnknownTime (times : Times 0) (forwardTime : Int) :
    (Single.addTimeOfThreadExecutingAtUnknownTime forwardTime : Locking (Times 0) Unit) ⟨times,false⟩ =
      some ((),⟨{ times with
        globalVirtualTime := longLong (times.globalVirtualTime + forwardTime)
        unknownParallelTime := longLong (times.unknownParallelTime + forwardTime) },false⟩) := rfl

end Vexjine.ThreadTimers
