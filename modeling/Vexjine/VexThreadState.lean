import Mathlib.Tactic

/-!
# The state of a thread

The fields of `VexThreadState` (with those of its `Timers` and `Scheduling`
parts) that decide whether a thread waits, parks, may be resumed or keeps other
threads from leaping, and the methods that set them. Clocks, statistics, names
and locks of the access keys are not fields here.
-/

namespace Vexjine

/-- `VexThreadStates::Code`. -/
inductive Code
  | unknownState | running | waiting | suspended | learningIo | inIo | timedWaiting | inNative | inModel
  | registering | suspendedSelf | nativeWaiting | inIoStale | nativeIoWaiting | inIoInvalidation
  | recoveredAfterFailedIo | awakingFromWaiting | waitingInternalSocketRead | vexZombie | custom1 | custom2
  | custom3 | inModelWaiting | afterModelSimWaitingForRealCode | inSystemCall
  deriving DecidableEq, Repr

/-- The number of a code: its position in the enumeration. -/
def Code.number : Code → Int := fun code => code.ctorIdx

structure VexThreadState where
  currentState : Code
  timeout : Int64
  timedOut : Bool
  timedWaitingObjectId : Int64
  parked : Bool
  alreadyUnparked : Bool
  afterInterruptedTimedParking : Bool
  waitingInRealTime : Bool
  awaken : Bool
  awakeningFromJoin : Bool
  inVex : Bool
  deriving DecidableEq

namespace VexThreadState

/-- `init()`; it leaves `timedWaitingObjectId` as the memory has it. -/
def init (timedWaitingObjectId : Int64) : VexThreadState where
  currentState := .registering
  timeout := -1
  timedOut := true
  timedWaitingObjectId := timedWaitingObjectId
  parked := false
  alreadyUnparked := false
  afterInterruptedTimedParking := false
  waitingInRealTime := false
  awaken := false
  awakeningFromJoin := false
  inVex := false

variable (state : VexThreadState)

/-! ## Tests -/

def isRegistering : Bool := decide (state.currentState = .registering)

def isSuspended : Bool := decide (state.currentState = .suspended)

def isWaiting : Bool := decide (state.currentState = .waiting)

def isNativeWaiting : Bool := decide (state.currentState = .nativeWaiting)

def isRunning : Bool := decide (state.currentState = .running) || decide (state.currentState = .inSystemCall)

def isInAnyIo : Bool := decide (state.currentState = .learningIo) || decide (state.currentState = .inIo)

def isTimedWaiting : Bool := state.isWaiting && decide (0 < state.timeout)

def isSomewhereInVex : Bool := state.inVex && !state.isWaiting

def isNotAfterInterruptedTimedParking : Bool := !state.afterInterruptedTimedParking

/-! ## Changes of state -/

def setNewState (newState : Code) : VexThreadState := { state with currentState := newState }

def setTimedOut (timedOut : Bool) : VexThreadState := { state with timedOut }

def setTimeout (timeout : Int64) : VexThreadState := { state with timeout }

def setAwaken (awaken : Bool) : VexThreadState := { state with awaken }

def setAwakeningFromJoin (awakeningFromJoin : Bool) : VexThreadState := { state with awakeningFromJoin }

/-- Only positive identifiers are remembered. -/
def setWaitingObjectId (objectId : Int64) : VexThreadState :=
  if 0 < objectId then { state with timedWaitingObjectId := objectId } else state

def setRunning : VexThreadState := state.setNewState .running

def setSuspended : VexThreadState := (state.setNewState .suspended).setAwaken false

def setWaiting : VexThreadState :=
  { state with timedOut := true,afterInterruptedTimedParking := false }.setNewState .waiting

/-- The timeout is added to the thread's virtual time, which is not a field here. -/
def setTimedWaiting (timeout : Int64) : VexThreadState :=
  ({ state.setNewState .waiting with timedOut := true,afterInterruptedTimedParking := false }.setAwaken false).setTimeout
    timeout

def setTimeoutFlagToDenotePossiblyResumingThread : VexThreadState := state.setTimeout 0

/-! ## Park flags -/

/-- Whether the permit was there; a park without one is recorded. -/
def getAndSetUnparkedState : Bool × VexThreadState :=
  if state.alreadyUnparked then (true,{ state with alreadyUnparked := false,parked := false })
  else (false,{ state with parked := true,timedWaitingObjectId := 0 })

/-- Whether the thread was parked; otherwise it is left a permit. -/
def getAndSetParkedState : Bool × VexThreadState :=
  if state.parked then (true,{ state with alreadyUnparked := false,parked := false })
  else (false,{ state with alreadyUnparked := true })

theorem getAndSetParkedState_fst : state.getAndSetParkedState.1 = state.parked := by
  unfold getAndSetParkedState
  split_ifs <;> simp_all

/-! ## Interrupts and resumption -/

/-- `beforeThreadInterruptAt` on the thread itself; the erasure from the object registry is the
    manager's. -/
def beforeThreadInterrupt : VexThreadState :=
  let state := if state.parked then
      { state with
        afterInterruptedTimedParking := state.afterInterruptedTimedParking || decide (0 < state.timeout)
        parked := false }
    else state
  let state := if state.timeout < 0 then state.setTimeoutFlagToDenotePossiblyResumingThread else state
  state.setSuspended.setTimedOut false

/-- What an interrupt leaves: a suspended thread that is not parked, and no negative timeout. -/
theorem beforeThreadInterrupt_eq : state.beforeThreadInterrupt = { state with
    currentState := .suspended
    timeout := if state.timeout < 0 then 0 else state.timeout
    timedOut := false
    parked := false
    afterInterruptedTimedParking :=
      state.afterInterruptedTimedParking || (state.parked && decide (0 < state.timeout))
    awaken := false } := by
  obtain ⟨currentState,timeout,timedOut,objectId,parked⟩ := state
  cases parked with
  | false =>
    by_cases negative : timeout < 0 <;>
      simp [beforeThreadInterrupt,negative,setTimeoutFlagToDenotePossiblyResumingThread,setTimeout,setSuspended,
        setNewState,setAwaken,setTimedOut]
  | true =>
    by_cases negative : timeout < 0 <;>
      simp [beforeThreadInterrupt,negative,setTimeoutFlagToDenotePossiblyResumingThread,setTimeout,setSuspended,
        setNewState,setAwaken,setTimedOut]

/-- `onThreadResumeByManager`. -/
def onThreadResumeByManager : VexThreadState := state.setAwaken true

/-- The entry of `blockHereUntilSignaled`; the thread returns from it once it is awaken. -/
def blockHereUntilSignaled : VexThreadState := state.setAwaken false

def onVexEntry : VexThreadState := { state with inVex := true }

def onVexExit : VexThreadState := { state with inVex := false }

end VexThreadState

end Vexjine
