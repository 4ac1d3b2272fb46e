import Vexjine.Runs
import Vexjine.ThreadManager
import Vexjine.ReentrantLockRegistry

/-!
# Thread events

The methods of `ThreadEventsBehaviour` for replaced waits, signals, locks and
parks, and the steps of the whole system: each event is a call by a thread, the
return of a blocked one, or a move of a manager. A signal or an unpark may also
come from a thread that is not simulated, so its caller is not part of the event.
-/

namespace Vexjine
set_option linter.unusedSimpArgs false

/-- The base lock registry. -/
def LockRegistry.operations : LockOperations (LockRegistry.Registry (LockRegistry.LockRegistryInfo Int64)) where
  tryAcquiringLock := LockRegistry.tryAcquiringLock
  releaseAndGetNext := LockRegistry.releaseAndGetNext

def ReentrantLockRegistry.operations :
    LockOperations (LockRegistry.Registry (ReentrantLockRegistry.ReentrantLockRegistryInfo Int64)) where
  tryAcquiringLock := ReentrantLockRegistry.tryAcquiringLock
  releaseAndGetNext := ReentrantLockRegistry.releaseAndGetNext

/-- The largest `long`. -/
def LONG_MAX : Int64 := 9223372036854775807

/-- The timeout in nanoseconds. -/
def ensureTimeoutIsLessThanMax (timeout : Int64) (nanoTimeout : Int32) : Int64 :=
  if timeout ≥ LONG_MAX / 1000000 then LONG_MAX else timeout * 1000000 + nanoTimeout.toInt64

namespace Vex
variable {Locks : Type} (locking : LockOperations Locks) (t : Int64) (vex : Vex Locks)

/-- The end of a call. -/
def onVexExit : Vex Locks := (vex.onState t VexThreadState.onVexExit).setPosition t .outside

/-! ## Locks -/

def onLocklessRequestingLock (lockId : Int64) : Vex Locks :=
  let (acquired,locks) := locking.tryAcquiringLock vex.lockRegistry t lockId
  if acquired then (vex.setLocks locks).onVexExit t
  else ((vex.setLocks locks).setPosition t (.requestingLock lockId)).onReplacedWaiting t

/-- The timeout is set on the thread that releases. -/
def onLocklessReleasingLock (lockId : Int64) : Vex Locks :=
  let (threadBlockedOnMonitor,locks) := locking.releaseAndGetNext vex.lockRegistry lockId
  match threadBlockedOnMonitor with
  | some blockedThread =>
    ((vex.setLocks locks).onState t fun state => state.setTimeout 0).onAnyReplacedWaitingInterrupt blockedThread
  | none => vex.setLocks locks

/-! ## Replaced waiting -/

def beforeReleasingLockOfAnyReplacedWaiting (objectId : Int64) (updateLockRegistry : Bool) : Vex Locks :=
  let vex := vex.setRegistry (vex.waitingOnObjectRegistry.insert objectId.toInt32 t)
  let vex := if updateLockRegistry then vex.onLocklessReleasingLock locking t objectId else vex
  vex.setPosition t (.registered objectId updateLockRegistry)

/-- The start of `onReplacedWaiting`, up to the wait. -/
def onReplacedWaitingStart (objectId : Int64) (updateLockRegistry : Bool) : Vex Locks :=
  let vex := vex.onState t fun state => ((state.onVexEntry.setTimedOut true).setWaitingObjectId objectId).setWaiting
  let vex := if updateLockRegistry then vex.onState t fun state => state.setTimeout (-2) else vex
  (vex.setPosition t (.replacedWaiting objectId updateLockRegistry)).onReplacedWaiting t

/-- The rest of it, once the thread runs again. -/
def onReplacedWaitingEnd (objectId : Int64) (updateLockRegistry : Bool) : Vex Locks :=
  if updateLockRegistry then
    (vex.onState t fun state => state.setTimeout (-1)).onLocklessRequestingLock locking t objectId
  else vex.onVexExit t

/-- Also the start of `onSleep`, on object zero. -/
def onReplacedTimedWaitingStart (objectId timeout : Int64) (position : Position) : Vex Locks :=
  let vex := vex.onState t fun state => (state.onVexEntry.setWaitingObjectId objectId).setTimedWaiting timeout
  (vex.setPosition t position).onReplacedTimedWaiting t

def onReplacedTimedWaitingEnd (objectId : Int64) (updateLockRegistry : Bool) : Vex Locks :=
  if updateLockRegistry then vex.onLocklessRequestingLock locking t objectId else vex.onVexExit t

/-! ## Signals -/

/-- Whether the thread was there and waiting, and was interrupted. -/
def interruptThread (isThreadInterruptCall : Bool) : Bool × Vex Locks :=
  match vex.threadRegistry t with
  | some thread =>
    if thread.state.isWaiting then
      (true,(vex.onAnyReplacedWaitingInterrupt t).onState t fun state => state.setTimedOut !isThreadInterruptCall)
    else (false,vex)
  | none => (false,vex)

def onSignallingOneThreadOnObject (manager : Nat) (objectId : Int64) : Bool × Vex Locks :=
  let nextWaitingThreadId := vex.waitingOnObjectRegistry.findNext objectId.toInt32
  if nextWaitingThreadId ≠ 0 then vex.interruptThread nextWaitingThreadId false
  else (false,vex.increasePendingNotifications manager)

/-- The loop of a broadcast: it takes one record in each round, so the number of records is
    enough rounds. -/
def interruptEveryNext {Locks : Type} (objectId : Int64) : Nat → Vex Locks → Bool × Vex Locks
  | 0,vex => (false,vex)
  | rounds + 1,vex =>
    let (nextWaitingThreadId,registry) := vex.waitingOnObjectRegistry.getNext objectId.toInt32
    if nextWaitingThreadId = 0 then (false,vex)
    else
      let (interrupted,vex) := (vex.setRegistry registry).interruptThread nextWaitingThreadId false
      let (anyThreadsInterrupted,vex) := interruptEveryNext objectId rounds vex
      (interrupted || anyThreadsInterrupted,vex)

def onSignallingAllThreadsOnObject (manager : Nat) (objectId : Int64) : Bool × Vex Locks :=
  if (vex.waitingOnObjectRegistry.getNext objectId.toInt32).1 = 0 then (false,vex.increasePendingNotifications manager)
  else interruptEveryNext objectId (vex.waitingOnObjectRegistry.threadsWaiting objectId.toInt32).length vex

/-! ## Parks -/

/-- A park without a permit is wrapped in a timed or an untimed wait. -/
def onPark (timeout : Int64) (thread : Thread) : Vex Locks :=
  let (alreadyUnparked,state) := thread.state.getAndSetUnparkedState
  let vex := (vex.onState t fun _ => state).setPosition t .parking
  if alreadyUnparked then vex
  else if timeout > 0 then
    (vex.onState t fun state =>
      { state.setWaitingObjectId 0 with waitingInRealTime := true }.setTimedWaiting timeout).setTimedWaitingThread t
  else
    (vex.onState t fun state =>
      (((state.setTimedOut true).setTimeout (-1)).setAwakeningFromJoin false).setWaiting).unsetCurrentThreadFromRunningThread t

/-- The return of a park; the object registry is not passed to the end of a timed one. -/
def onParked (suspends : Bool) (thread : Thread) : Vex Locks :=
  let vex := (vex.onState t VexThreadState.onVexEntry).setPosition t .outside
  if thread.state.timeout > 0 then
    (vex.onState t fun state =>
      ({ state with waitingInRealTime := false }.setTimedOut true).setSuspended).onBlockedWaitingInVex t
  else
    let vex := (vex.onState t fun state =>
      ((state.setTimeout (-1)).setAwakeningFromJoin false).setTimedOut true).suspendCurrentThread t suspends
    if vex.isBlocked t then vex else vex.onVexExit t

/-- A timed park keeps its place in the queue, which is updated. -/
def onUnpark (thread : Thread) : Vex Locks :=
  let (parked,state) := thread.state.getAndSetParkedState
  let vex := vex.onState t fun _ => state
  if parked then
    if thread.state.timeout > 0 then vex.onState t fun state => state.setTimedOut false
    else vex.onWrappedWaitingInterrupt t
  else vex

/-- Without a park to end, an unpark leaves a permit and does nothing else. -/
theorem onUnpark_of_notParked {thread : Thread} (notParked : thread.state.parked = false) :
    vex.onUnpark t thread = vex.onState t fun _ => { thread.state with alreadyUnparked := true } := by
  simp [onUnpark,VexThreadState.getAndSetParkedState,notParked]

/-! ## Threads -/

def onThreadSpawn (manager : Nat) (timedWaitingObjectId : Int64) (suspends : Bool) : Vex Locks :=
  (vex.setThread t (some {
      state := .init timedWaitingObjectId
      threadCurrentlyControllingManager := manager
      blocked := false
      position := .outside })).suspendCurrentThread t suspends

def onThreadEnd : Vex Locks := (vex.unsetCurrentThreadFromRunningThread t).setThread t none

/-- A thread that was resumed returns from `blockHereUntilSignaled` and becomes the running one,
    or is suspended again; in the first case it leaves the call it was blocked in. -/
def returnFromBlock (thread : Thread) : Vex Locks :=
  let vex := vex.setRunningThread t
  if vex.isBlocked t then vex
  else match thread.position with
    | .replacedWaiting objectId updateLockRegistry => vex.onReplacedWaitingEnd locking t objectId updateLockRegistry
    | .replacedTimedWaiting objectId updateLockRegistry => vex.onReplacedTimedWaitingEnd locking t objectId updateLockRegistry
    | .sleeping => vex.onVexExit t
    | .requestingLock _ => vex.onVexExit t
    | .outside => vex.onVexExit t
    | .registered _ _ => vex
    | .parking => vex

end Vex

/-! ## Steps -/

inductive Event
  | spawn (t : Int64) (manager : Nat) (timedWaitingObjectId : Int64) (suspends : Bool)
  | ended (t : Int64)
  | suspend (t : Int64)
  | suspendLoose (t : Int64)
  | register (t objectId : Int64) (updateLockRegistry : Bool)
  | wait (t : Int64)
  | timedWait (t timeout : Int64) (nanoTimeout : Int32)
  | sleep (t timeout : Int64) (nanoTimeout : Int32)
  | signal (manager : Nat) (objectId : Int64)
  | broadcast (manager : Nat) (objectId : Int64)
  | interrupt (t : Int64)
  | requestLock (t lockId : Int64)
  | releaseLock (t lockId : Int64)
  | park (t timeout : Int64)
  | parked (t : Int64) (suspends : Bool)
  | unpark (t : Int64)
  | continueThread (manager : Nat) (t : Int64) (leapIsValid : Bool)
  | returnFromBlock (t : Int64)
  deriving DecidableEq

namespace Thread

/-- The thread executes its own code. -/
def isFree (thread : Thread) : Bool := !thread.blocked && thread.state.isRunning

/-- It may start a call that no other call has announced. -/
def isOutside (thread : Thread) : Bool := thread.isFree && decide (thread.position = .outside)

end Thread

namespace Vex
variable {Locks : Type} (locking : LockOperations Locks)

/-- The thread of a step, if it is registered and may make the step. -/
def actor (vex : Vex Locks) (t : Int64) (may : Thread → Bool) : Option Thread :=
  (vex.threadRegistry t).filter may

/-- Steps of threads that their position does not allow are refused. -/
def step (vex : Vex Locks) : Event → Option (Vex Locks)
  | .spawn t manager timedWaitingObjectId suspends =>
    if t ≠ 0 ∧ vex.threadRegistry t = none then some (vex.onThreadSpawn t manager timedWaitingObjectId suspends) else none
  | .ended t => (vex.actor t Thread.isFree).map fun _ => vex.onThreadEnd t
  | .suspend t =>
    if vex.runningThread (vex.managerOf t) = some t then (vex.actor t Thread.isFree).map fun _ => vex.suspendThread t
    else none
  | .suspendLoose t =>
    (vex.actor t fun thread => !thread.blocked && !thread.state.isRunning && decide (thread.position ≠ .parking)).map
      fun _ => (vex.onState t VexThreadState.onVexEntry).suspendLooseCurrentThread t
  | .register t objectId updateLockRegistry =>
    (vex.actor t Thread.isOutside).map fun _ =>
      vex.beforeReleasingLockOfAnyReplacedWaiting locking t objectId updateLockRegistry
  | .wait t =>
    (vex.actor t Thread.isFree).bind fun thread => match thread.position with
      | .registered objectId updateLockRegistry => some (vex.onReplacedWaitingStart t objectId updateLockRegistry)
      | _ => none
  | .timedWait t timeout nanoTimeout =>
    (vex.actor t Thread.isFree).bind fun thread => match thread.position with
      | .registered objectId updateLockRegistry =>
        some (vex.onReplacedTimedWaitingStart t objectId (ensureTimeoutIsLessThanMax timeout nanoTimeout)
          (.replacedTimedWaiting objectId updateLockRegistry))
      | _ => none
  | .sleep t timeout nanoTimeout =>
    (vex.actor t Thread.isOutside).map fun _ =>
      vex.onReplacedTimedWaitingStart t 0 (ensureTimeoutIsLessThanMax timeout nanoTimeout) .sleeping
  | .signal manager objectId => some (vex.onSignallingOneThreadOnObject manager objectId).2
  | .broadcast manager objectId => some (vex.onSignallingAllThreadsOnObject manager objectId).2
  | .interrupt t => some (vex.interruptThread t true).2
  | .requestLock t lockId =>
    (vex.actor t Thread.isOutside).map fun _ => vex.onLocklessRequestingLock locking t lockId
  | .releaseLock t lockId =>
    (vex.actor t Thread.isOutside).map fun _ => vex.onLocklessReleasingLock locking t lockId
  | .park t timeout => (vex.actor t Thread.isOutside).map fun thread => vex.onPark t timeout thread
  | .parked t suspends =>
    (vex.actor t fun thread => !thread.blocked && decide (thread.position = .parking)).map fun thread =>
      vex.onParked t suspends thread
  | .unpark t => match vex.threadRegistry t with
    | some thread => some (vex.onUnpark t thread)
    | none => some vex
  | .continueThread manager t leapIsValid => vex.continueThread t manager leapIsValid
  | .returnFromBlock t =>
    (vex.actor t fun thread => thread.blocked && thread.state.awaken).map fun thread =>
      vex.returnFromBlock locking t thread

end Vex

/-! ## What a step leaves alone -/

/-- The thread that makes the step or that the step names. -/
def Event.thread : Event → Option Int64
  | .spawn t _ _ _ | .ended t | .suspend t | .suspendLoose t | .register t _ _ | .wait t | .timedWait t _ _
  | .sleep t _ _ | .interrupt t | .requestLock t _ | .releaseLock t _ | .park t _ | .parked t _ | .unpark t
  | .continueThread _ t _ | .returnFromBlock t => some t
  | .signal _ _ | .broadcast _ _ => none

/-- The step may write the object registry. -/
def Event.writesRecords : Event → Bool
  | .register _ _ _ | .signal _ _ | .broadcast _ _ | .interrupt _ | .releaseLock _ _ | .continueThread _ _ _ => true
  | _ => false

/-- The step may interrupt a thread it does not name. -/
def Event.interruptsOthers : Event → Bool
  | .signal _ _ | .broadcast _ _ | .register _ _ _ | .releaseLock _ _ => true
  | _ => false

namespace Vex
section Frame
variable {Locks : Type} {locking : LockOperations Locks} {t b : Int64} {vex next : Vex Locks}

theorem onVexExit_keeps (other : b ≠ t) : Keeps b vex (vex.onVexExit t) :=
  (onState_keeps _ other).trans (setPosition_keeps _ other)

theorem onLocklessRequestingLock_keeps (lockId : Int64) (other : b ≠ t) :
    Keeps b vex (vex.onLocklessRequestingLock locking t lockId) := by
  unfold onLocklessRequestingLock
  dsimp only
  split_ifs
  · exact (setLocks_keeps _).trans (onVexExit_keeps other)
  · exact ((setLocks_keeps _).trans (setPosition_keeps _ other)).trans (onReplacedWaiting_keeps other)

theorem onReplacedWaitingStart_keeps (objectId : Int64) (updateLockRegistry : Bool) (other : b ≠ t) :
    Keeps b vex (vex.onReplacedWaitingStart t objectId updateLockRegistry) := by
  unfold onReplacedWaitingStart
  dsimp only
  refine Keeps.trans ?_ (onReplacedWaiting_keeps other)
  refine Keeps.trans ?_ (setPosition_keeps _ other)
  split_ifs
  · exact (onState_keeps _ other).trans (onState_keeps _ other)
  · exact onState_keeps _ other

theorem onReplacedWaitingEnd_keeps (objectId : Int64) (updateLockRegistry : Bool) (other : b ≠ t) :
    Keeps b vex (vex.onReplacedWaitingEnd locking t objectId updateLockRegistry) := by
  unfold onReplacedWaitingEnd
  split_ifs
  · exact (onState_keeps _ other).trans (onLocklessRequestingLock_keeps objectId other)
  · exact onVexExit_keeps other

theorem onReplacedTimedWaitingStart_keeps (objectId timeout : Int64) (position : Position) (other : b ≠ t) :
    Keeps b vex (vex.onReplacedTimedWaitingStart t objectId timeout position) :=
  ((onState_keeps _ other).trans (setPosition_keeps position other)).trans (onReplacedTimedWaiting_keeps other)

theorem onReplacedTimedWaitingEnd_keeps (objectId : Int64) (updateLockRegistry : Bool) (other : b ≠ t) :
    Keeps b vex (vex.onReplacedTimedWaitingEnd locking t objectId updateLockRegistry) := by
  unfold onReplacedTimedWaitingEnd
  split_ifs
  · exact onLocklessRequestingLock_keeps objectId other
  · exact onVexExit_keeps other

theorem interruptThread_keeps (isThreadInterruptCall : Bool) (other : b ≠ t) :
    Keeps b vex (vex.interruptThread t isThreadInterruptCall).2 := by
  unfold interruptThread
  split
  · split
    · dsimp only
      exact (onAnyReplacedWaitingInterrupt_keeps other).trans (onState_keeps _ other)
    · exact .refl b vex
  · exact .refl b vex

theorem onPark_keeps (timeout : Int64) (thread : Thread) (other : b ≠ t) : Keeps b vex (vex.onPark t timeout thread) := by
  unfold onPark
  dsimp only
  refine ((onState_keeps (fun _ => thread.state.getAndSetUnparkedState.2) other).trans
    (setPosition_keeps .parking other)).trans ?_
  split_ifs
  · exact .refl b _
  · exact (onState_keeps _ other).trans (setTimedWaitingThread_keeps other)
  · exact (onState_keeps _ other).trans unset_keeps

theorem onParked_keeps (suspends : Bool) (thread : Thread) (other : b ≠ t) :
    Keeps b vex (vex.onParked t suspends thread) := by
  unfold onParked
  dsimp only
  refine ((onState_keeps VexThreadState.onVexEntry other).trans (setPosition_keeps .outside other)).trans ?_
  split_ifs
  · exact (onState_keeps _ other).trans (onBlockedWaitingInVex_keeps other)
  · exact (onState_keeps _ other).trans (suspendCurrentThread_keeps suspends other)
  · exact ((onState_keeps _ other).trans (suspendCurrentThread_keeps suspends other)).trans (onVexExit_keeps other)

theorem onUnpark_keeps (thread : Thread) (other : b ≠ t) : Keeps b vex (vex.onUnpark t thread) := by
  unfold onUnpark
  dsimp only
  refine (onState_keeps (fun _ => thread.state.getAndSetParkedState.2) other).trans ?_
  split_ifs
  · exact onState_keeps _ other
  · exact onState_keeps _ other
  · exact .refl b _

theorem onThreadSpawn_keeps (manager : Nat) (timedWaitingObjectId : Int64) (suspends : Bool) (other : b ≠ t) :
    Keeps b vex (vex.onThreadSpawn t manager timedWaitingObjectId suspends) := by
  unfold onThreadSpawn
  exact (setThread_keeps _ other).trans (suspendCurrentThread_keeps suspends other)

theorem onThreadEnd_keeps (other : b ≠ t) : Keeps b vex (vex.onThreadEnd t) :=
  unset_keeps.trans (setThread_keeps none other)

theorem returnFromBlock_keeps (thread : Thread) (other : b ≠ t) : Keeps b vex (vex.returnFromBlock locking t thread) := by
  unfold returnFromBlock
  dsimp only
  refine (setRunningThread_keeps other).trans ?_
  split_ifs
  · exact .refl b _
  · cases thread.position with
    | outside => exact onVexExit_keeps other
    | registered objectId updateLockRegistry => exact .refl b _
    | replacedWaiting objectId updateLockRegistry => exact onReplacedWaitingEnd_keeps objectId updateLockRegistry other
    | replacedTimedWaiting objectId updateLockRegistry =>
      exact onReplacedTimedWaitingEnd_keeps objectId updateLockRegistry other
    | sleeping => exact onVexExit_keeps other
    | requestingLock lockId => exact onVexExit_keeps other
    | parking => exact .refl b _

/-! Where the methods leave their thread. -/

theorem position_of_set (position : Position) {thread : Thread}
    (found : (vex.setPosition b position).threadRegistry b = some thread) : thread.position = position := by
  cases before : vex.threadRegistry b with
  | none => simp [setPosition,onThread,before] at found
  | some old =>
    rw [setPosition_self _ before] at found
    cases found
    rfl

theorem onVexExit_position {thread : Thread} (found : (vex.onVexExit b).threadRegistry b = some thread) :
    thread.position = .outside := position_of_set .outside found

theorem requestLock_position (lockId : Int64) {thread : Thread}
    (found : (vex.onLocklessRequestingLock locking b lockId).threadRegistry b = some thread) :
    thread.position = .outside ∨ thread.position = .requestingLock lockId := by
  unfold onLocklessRequestingLock at found
  dsimp only at found
  split_ifs at found
  · exact .inl (onVexExit_position found)
  · cases before : vex.threadRegistry b with
    | none => simp [onReplacedWaiting,onBlockedWaitingInVex,setPosition,setLocks,setBlocked,onState,onThread,before] at found
    | some old =>
      have positioned : ((vex.setLocks (locking.tryAcquiringLock vex.lockRegistry b lockId).2).setPosition b
          (.requestingLock lockId)).threadRegistry b = some { old with position := .requestingLock lockId } :=
        setPosition_self _ before
      rw [onReplacedWaiting_self positioned] at found
      cases found
      exact .inr rfl

theorem onPark_position (timeout : Int64) {old thread : Thread} (before : vex.threadRegistry b = some old)
    (found : (vex.onPark b timeout old).threadRegistry b = some thread) : thread.position = .parking := by
  have parking : ((vex.onState b fun _ => old.state.getAndSetUnparkedState.2).setPosition b .parking).threadRegistry b =
      some { old with state := old.state.getAndSetUnparkedState.2,position := .parking } :=
    onThread_self _ (onState_self _ before)
  unfold onPark at found
  dsimp only at found
  split_ifs at found
  · rw [parking] at found
    cases found
    rfl
  · simp only [setTimedWaitingThread,pushRunnable] at found
    rw [onState_self _ (by rw [unset_threadRegistry]; exact onState_self _ parking)] at found
    cases found
    rfl
  · rw [unset_threadRegistry,onState_self _ parking] at found
    cases found
    rfl

theorem onParked_position (suspends : Bool) {old thread : Thread} (before : vex.threadRegistry b = some old)
    (found : (vex.onParked b suspends old).threadRegistry b = some thread) : thread.position = .outside := by
  have outside : ((vex.onState b VexThreadState.onVexEntry).setPosition b .outside).threadRegistry b =
      some { old with state := old.state.onVexEntry,position := .outside } :=
    onThread_self _ (onState_self _ before)
  unfold onParked at found
  dsimp only at found
  split_ifs at found
  · rw [onBlockedWaitingInVex,setBlocked,onThread_self _ (onState_self _ (onState_self _ outside))] at found
    cases found
    rfl
  · obtain ⟨after,suspended,position⟩ := suspendCurrentThread_position suspends (onState_self (fun state =>
      ((state.setTimeout (-1)).setAwakeningFromJoin false).setTimedOut true) outside)
    rw [suspended] at found
    cases found
    exact position
  · exact onVexExit_position found

/-! The object registry is written by the registration of a wait, by interrupts and by broadcasts. -/

@[simp] theorem onVexExit_records : (vex.onVexExit t).waitingOnObjectRegistry = vex.waitingOnObjectRegistry := rfl

@[simp] theorem onLocklessRequestingLock_records (lockId : Int64) :
    (vex.onLocklessRequestingLock locking t lockId).waitingOnObjectRegistry = vex.waitingOnObjectRegistry := by
  unfold onLocklessRequestingLock
  dsimp only
  split_ifs <;> simp

@[simp] theorem onReplacedWaitingStart_records (objectId : Int64) (updateLockRegistry : Bool) :
    (vex.onReplacedWaitingStart t objectId updateLockRegistry).waitingOnObjectRegistry = vex.waitingOnObjectRegistry := by
  unfold onReplacedWaitingStart
  dsimp only
  split_ifs <;> simp

@[simp] theorem onReplacedWaitingEnd_records (objectId : Int64) (updateLockRegistry : Bool) :
    (vex.onReplacedWaitingEnd locking t objectId updateLockRegistry).waitingOnObjectRegistry =
      vex.waitingOnObjectRegistry := by
  unfold onReplacedWaitingEnd
  split_ifs <;> simp

@[simp] theorem onReplacedTimedWaitingStart_records (objectId timeout : Int64) (position : Position) :
    (vex.onReplacedTimedWaitingStart t objectId timeout position).waitingOnObjectRegistry =
      vex.waitingOnObjectRegistry := by simp [onReplacedTimedWaitingStart]

@[simp] theorem onReplacedTimedWaitingEnd_records (objectId : Int64) (updateLockRegistry : Bool) :
    (vex.onReplacedTimedWaitingEnd locking t objectId updateLockRegistry).waitingOnObjectRegistry =
      vex.waitingOnObjectRegistry := by
  unfold onReplacedTimedWaitingEnd
  split_ifs <;> simp

@[simp] theorem onPark_records (timeout : Int64) (thread : Thread) :
    (vex.onPark t timeout thread).waitingOnObjectRegistry = vex.waitingOnObjectRegistry := by
  unfold onPark
  dsimp only
  split_ifs <;> simp

@[simp] theorem onParked_records (suspends : Bool) (thread : Thread) :
    (vex.onParked t suspends thread).waitingOnObjectRegistry = vex.waitingOnObjectRegistry := by
  unfold onParked
  dsimp only
  split_ifs <;> simp

@[simp] theorem onUnpark_records (thread : Thread) :
    (vex.onUnpark t thread).waitingOnObjectRegistry = vex.waitingOnObjectRegistry := by
  unfold onUnpark
  dsimp only
  split_ifs <;> rfl

@[simp] theorem returnFromBlock_records (thread : Thread) :
    (vex.returnFromBlock locking t thread).waitingOnObjectRegistry = vex.waitingOnObjectRegistry := by
  unfold returnFromBlock
  dsimp only
  split_ifs
  · simp
  · cases thread.position <;> simp

theorem actor_eq {may : Thread → Bool} {thread : Thread} (acting : vex.actor t may = some thread) :
    vex.threadRegistry t = some thread ∧ may thread = true := Option.filter_eq_some_iff.mp acting

/-- A step that neither names a thread nor interrupts others leaves the thread alone. -/
theorem step_keeps {event : Event} (stepped : vex.step locking event = some next) (other : event.thread ≠ some b)
    (calm : event.interruptsOthers = false) : Keeps b vex next := by
  have apart {t : Int64} (named : event.thread = some t) : b ≠ t := by
    rintro rfl
    exact other named
  cases event with
  | spawn t manager timedWaitingObjectId suspends =>
    simp only [step,Option.ite_none_right_eq_some,Option.some.injEq] at stepped
    exact stepped.2 ▸ onThreadSpawn_keeps manager timedWaitingObjectId suspends (apart rfl)
  | ended t =>
    obtain ⟨thread,-,rfl⟩ := Option.map_eq_some_iff.mp stepped
    exact onThreadEnd_keeps (apart rfl)
  | suspend t =>
    simp only [step,Option.ite_none_right_eq_some] at stepped
    obtain ⟨thread,-,rfl⟩ := Option.map_eq_some_iff.mp stepped.2
    exact suspendThread_keeps (apart rfl)
  | suspendLoose t =>
    obtain ⟨thread,-,rfl⟩ := Option.map_eq_some_iff.mp stepped
    exact (onState_keeps _ (apart rfl)).trans (suspendLooseCurrentThread_keeps (apart rfl))
  | register t objectId updateLockRegistry => cases calm
  | wait t =>
    obtain ⟨thread,-,started⟩ := Option.bind_eq_some_iff.mp stepped
    split at started
    · cases started
      exact onReplacedWaitingStart_keeps _ _ (apart rfl)
    · cases started
  | timedWait t timeout nanoTimeout =>
    obtain ⟨thread,-,started⟩ := Option.bind_eq_some_iff.mp stepped
    split at started
    · cases started
      exact onReplacedTimedWaitingStart_keeps _ _ _ (apart rfl)
    · cases started
  | sleep t timeout nanoTimeout =>
    obtain ⟨thread,-,rfl⟩ := Option.map_eq_some_iff.mp stepped
    exact onReplacedTimedWaitingStart_keeps _ _ _ (apart rfl)
  | signal manager objectId => cases calm
  | broadcast manager objectId => cases calm
  | interrupt t =>
    cases stepped
    exact interruptThread_keeps true (apart rfl)
  | requestLock t lockId =>
    obtain ⟨thread,-,rfl⟩ := Option.map_eq_some_iff.mp stepped
    exact onLocklessRequestingLock_keeps lockId (apart rfl)
  | releaseLock t lockId => cases calm
  | park t timeout =>
    obtain ⟨thread,-,rfl⟩ := Option.map_eq_some_iff.mp stepped
    exact onPark_keeps timeout thread (apart rfl)
  | parked t suspends =>
    obtain ⟨thread,-,rfl⟩ := Option.map_eq_some_iff.mp stepped
    exact onParked_keeps suspends thread (apart rfl)
  | unpark t =>
    simp only [step] at stepped
    split at stepped
    · cases stepped
      exact onUnpark_keeps _ (apart rfl)
    · cases stepped
      exact .refl b vex
  | continueThread manager t leapIsValid => exact continueThread_keeps (apart rfl) stepped
  | returnFromBlock t =>
    obtain ⟨thread,-,rfl⟩ := Option.map_eq_some_iff.mp stepped
    exact returnFromBlock_keeps thread (apart rfl)

theorem step_records {event : Event} (stepped : vex.step locking event = some next)
    (quiet : event.writesRecords = false) : next.waitingOnObjectRegistry = vex.waitingOnObjectRegistry := by
  cases event with
  | spawn t manager timedWaitingObjectId suspends =>
    simp only [step,Option.ite_none_right_eq_some,Option.some.injEq] at stepped
    simp [← stepped.2,onThreadSpawn]
  | ended t =>
    obtain ⟨thread,-,rfl⟩ := Option.map_eq_some_iff.mp stepped
    simp [onThreadEnd]
  | suspend t =>
    simp only [step,Option.ite_none_right_eq_some] at stepped
    obtain ⟨thread,-,rfl⟩ := Option.map_eq_some_iff.mp stepped.2
    simp
  | wait t =>
    obtain ⟨thread,-,started⟩ := Option.bind_eq_some_iff.mp stepped
    split at started <;> cases started
    simp
  | timedWait t timeout nanoTimeout =>
    obtain ⟨thread,-,started⟩ := Option.bind_eq_some_iff.mp stepped
    split at started <;> cases started
    simp
  | unpark t =>
    simp only [step] at stepped
    split at stepped <;> cases stepped
    · simp
    · rfl
  | suspendLoose t | sleep t timeout nanoTimeout | requestLock t lockId | park t timeout | parked t suspends
  | returnFromBlock t =>
    obtain ⟨thread,-,rfl⟩ := Option.map_eq_some_iff.mp stepped
    simp
  | _ => cases quiet

/-- A property of a thread's entry and of its place in the queue that interrupts keep. -/
structure Robust (b : Int64) (P : Vex Locks → Prop) : Prop where
  kept : ∀ {vex next}, Keeps b vex next → P vex → P next
  interrupted : ∀ {vex}, P vex → P (vex.onAnyReplacedWaitingInterrupt b)
  flagged : ∀ {vex} (timedOut : Bool), P vex → P (vex.onState b fun state => state.setTimedOut timedOut)

namespace Robust
variable {P : Vex Locks → Prop} (robust : Robust b P)
include robust

theorem interrupt (t : Int64) (holds : P vex) : P (vex.onAnyReplacedWaitingInterrupt t) := by
  by_cases same : b = t
  · exact same ▸ robust.interrupted holds
  · exact robust.kept (onAnyReplacedWaitingInterrupt_keeps same) holds

theorem interruptThread (t : Int64) (isThreadInterruptCall : Bool) (holds : P vex) :
    P (vex.interruptThread t isThreadInterruptCall).2 := by
  by_cases same : b = t
  · subst same
    unfold Vex.interruptThread
    split
    · split
      · exact robust.flagged _ (robust.interrupted holds)
      · exact holds
    · exact holds
  · exact robust.kept (interruptThread_keeps isThreadInterruptCall same) holds

/-- The loop of a broadcast, by induction on its rounds. -/
theorem interruptEveryNext (objectId : Int64) (rounds : Nat) (holds : P vex) :
    P (vex.interruptEveryNext objectId rounds).2 := by
  induction rounds generalizing vex with
  | zero => exact holds
  | succ rounds ih =>
    unfold Vex.interruptEveryNext
    dsimp only
    split_ifs
    · exact holds
    · exact ih (robust.interruptThread _ false (robust.kept (setRegistry_keeps _) holds))

theorem signalled (manager : Nat) (objectId : Int64) (holds : P vex) :
    P (vex.onSignallingOneThreadOnObject manager objectId).2 := by
  unfold onSignallingOneThreadOnObject
  dsimp only
  split_ifs
  · exact robust.interruptThread _ false holds
  · exact robust.kept (increasePendingNotifications_keeps manager) holds

theorem broadcast (manager : Nat) (objectId : Int64) (holds : P vex) :
    P (vex.onSignallingAllThreadsOnObject manager objectId).2 := by
  unfold onSignallingAllThreadsOnObject
  split_ifs
  · exact robust.kept (increasePendingNotifications_keeps manager) holds
  · exact robust.interruptEveryNext objectId _ holds

theorem released (lockId : Int64) (other : b ≠ t) (holds : P vex) : P (vex.onLocklessReleasingLock locking t lockId) := by
  have unlocked : P (vex.setLocks (locking.releaseAndGetNext vex.lockRegistry lockId).2) :=
    robust.kept (setLocks_keeps _) holds
  unfold onLocklessReleasingLock
  dsimp only
  split
  · exact robust.interrupt _ (robust.kept (onState_keeps _ other) unlocked)
  · exact unlocked

theorem registered (objectId : Int64) (updateLockRegistry : Bool) (other : b ≠ t) (holds : P vex) :
    P (vex.beforeReleasingLockOfAnyReplacedWaiting locking t objectId updateLockRegistry) := by
  have inserted : P (vex.setRegistry (vex.waitingOnObjectRegistry.insert objectId.toInt32 t)) :=
    robust.kept (setRegistry_keeps _) holds
  unfold beforeReleasingLockOfAnyReplacedWaiting
  dsimp only
  refine robust.kept (setPosition_keeps _ other) ?_
  split_ifs
  · exact robust.released objectId other inserted
  · exact inserted

/-- No step that another thread makes breaks it. -/
theorem step {event : Event} (holds : P vex) (other : event.thread ≠ some b)
    (stepped : vex.step locking event = some next) : P next := by
  by_cases calm : event.interruptsOthers = false
  · exact robust.kept (step_keeps stepped other calm) holds
  · cases event with
    | register t objectId updateLockRegistry =>
      obtain ⟨thread,-,rfl⟩ := Option.map_eq_some_iff.mp stepped
      exact robust.registered objectId updateLockRegistry (fun same => other (congrArg some same.symm)) holds
    | signal manager objectId =>
      cases stepped
      exact robust.signalled manager objectId holds
    | broadcast manager objectId =>
      cases stepped
      exact robust.broadcast manager objectId holds
    | releaseLock t lockId =>
      obtain ⟨thread,-,rfl⟩ := Option.map_eq_some_iff.mp stepped
      exact robust.released lockId (fun same => other (congrArg some same.symm)) holds
    | _ => exact absurd rfl calm

end Robust

end Frame

end Vex

end Vexjine
