import Vexjine.Signals

/-!
# Membership in the queue of runnable threads

The base manager's steps, with those of native waits and of I/O added to them, and
the conditions under which every thread that the scheduler must find again is
queued once. A thread in a native wait or in I/O executes code that the managers do
not control until it ends the call.
-/

namespace Vexjine
set_option linter.unusedSimpArgs false

/-! ## Native waits and I/O -/

namespace QueueMembership

inductive NativeCall
  | wrappedWaiting
  | wrappedTimedWaiting
  | io
  deriving DecidableEq

/-- The protocol of parallel I/O. Calls that are recognised as cached leave their threads running. -/
inductive IoProtocol
  | lax
  | normal
  deriving DecidableEq

end QueueMembership

def VexThreadState.setIo (state : VexThreadState) (learning : Bool) : VexThreadState :=
  state.setNewState (if learning then .learningIo else .inIo)

namespace Vex
variable {Locks : Type} (t : Int64) (vex : Vex Locks)

/-- Of a thread that enters VEX, whose call ends if it is not suspended. -/
def suspendOnVexEntry (suspends : Bool) : Vex Locks :=
  let vex := (vex.onState t VexThreadState.onVexEntry).suspendCurrentThread t suspends
  if vex.isBlocked t then vex else vex.onVexExit t

/-- `suspendCurrentThread` with `SUSPEND_OPT_THREAD_ALREADY_IN_LIST`. -/
def suspendListedThread (suspends : Bool) : Vex Locks :=
  if suspends then
    ((vex.unsetCurrentThreadFromRunningThread t).onState t VexThreadState.setSuspended).onBlockedWaitingInVex t
  else if vex.runningThread (vex.managerOf t) = some t then vex
  else (vex.popRunnable t).setRunningThread t

def onWrappedWaitingStart : Vex Locks :=
  (vex.onState t fun state =>
    (((state.setTimedOut true).setTimeout (-1)).setAwakeningFromJoin false).setWaiting).unsetCurrentThreadFromRunningThread t

def onWrappedWaitingEnd (suspends : Bool) : Vex Locks :=
  (vex.onState t fun state => ((state.setTimeout (-1)).setAwakeningFromJoin false).setTimedOut true).suspendOnVexEntry t suspends

def onWrappedTimedWaitingStart (objectId timeout : Int64) : Vex Locks :=
  ((vex.setRegistry (vex.waitingOnObjectRegistry.insert objectId.toInt32 t)).onState t fun state =>
    { state.setWaitingObjectId objectId with waitingInRealTime := true }.setTimedWaiting timeout).setTimedWaitingThread t

def onWrappedTimedWaitingEnd : Vex Locks :=
  (((vex.onState t fun state => { state.onVexEntry with waitingInRealTime := false }).eraseWaitingObjectIdFromRegistry
    t).onState t fun state => (state.setTimedOut true).setSuspended).onBlockedWaitingInVex t

/-- `_setIoThread`; the timeout of an operation that may time out is added to clocks. -/
def setIoThread (learning : Bool) (thread : Thread) : Vex Locks :=
  let vex := (vex.unsetCurrentThreadFromRunningThread t).onState t fun state => state.setIo learning
  if learning ∧ thread.state.timeout = -1 then vex else vex.pushRunnable t

/-- `onEnd` of the protocol. -/
def onIoEnd (protocol : QueueMembership.IoProtocol) (suspends : Bool) (thread : Thread) : Vex Locks :=
  let vex := match protocol with
    | .lax => vex.suspendCurrentThread t suspends
    | .normal =>
      if thread.state.currentState = .learningIo then
        if thread.state.timeout ≠ -1 then (vex.onState t fun state => state.setTimeout (-1)).suspendListedThread t suspends
        else vex.suspendCurrentThread t suspends
      else if thread.state.currentState = .inIo then vex.suspendListedThread t suspends
      else vex
  if vex.isBlocked t then vex else vex.onVexExit t

/-- `continueThread` on a thread in I/O: a predicted one stays in the queue, also where its prediction is
    extended; a learning one without a timeout fails an assertion. -/
def continueIoThread (leapIsValid : Bool) (thread : Thread) : Option (Vex Locks) :=
  if thread.state.currentState = .inIo then some vex
  else if thread.state.currentState = .learningIo ∧ thread.state.timeout ≠ -1 then
    if leapIsValid && !thread.state.waitingInRealTime then
      some ((vex.popRunnable t).onState t fun state => state.setTimedOut true)
    else some ((vex.popRunnable t).pushRunnable t)
  else none

end Vex

namespace QueueMembership
open Vexjine.Runs Vexjine.Vex Vexjine.Signals
variable {Locks : Type}

/-! ## Steps -/

structure State (Locks : Type) where
  vex : Vex Locks
  nativeCalls : Int64 → Option NativeCall

inductive Step
  | event (event : Event)
  | interactionPoint (t : Int64) (suspends : Bool)
  | wrappedWaitingStart (t : Int64)
  | wrappedWaitingEnd (t : Int64) (suspends : Bool)
  | wrappedTimedWaitingStart (t objectId timeout : Int64) (nanoTimeout : Int32)
  | wrappedTimedWaitingEnd (t : Int64)
  | ioStart (t : Int64) (predicted : Bool)
  | ioEnd (t : Int64) (suspends : Bool)
  | continueIo (t : Int64) (leapIsValid : Bool)
  deriving DecidableEq

/-- The thread that makes the call. -/
def caller : Event → Option Int64
  | .ended t | .suspendLoose t | .register t _ _ | .wait t | .timedWait t _ _ | .sleep t _ _ | .requestLock t _
  | .releaseLock t _ | .park t _ | .parked t _ => some t
  | .spawn _ _ _ _ | .suspend _ | .signal _ _ | .broadcast _ _ | .interrupt _ | .unpark _ | .continueThread _ _ _
  | .returnFromBlock _ => none

/-- A thread outside any call starts a native one. -/
def startNative (state : State Locks) (t : Int64) (call : NativeCall) (start : Thread → Vex Locks) : Option (State Locks) :=
  if state.nativeCalls t = none then
    (state.vex.actor t Thread.isOutside).map fun thread =>
      ⟨start thread,Function.update state.nativeCalls t (some call)⟩
  else none

def endNative (state : State Locks) (t : Int64) (call : NativeCall) (finish : Thread → Vex Locks) : Option (State Locks) :=
  if state.nativeCalls t = some call then
    (state.vex.actor t fun thread => !thread.blocked).map fun thread =>
      ⟨finish thread,Function.update state.nativeCalls t none⟩
  else none

def step (locking : LockOperations Locks) (protocol : IoProtocol) (state : State Locks) : Step → Option (State Locks)
  | .event event =>
    if (caller event).all fun t => (state.nativeCalls t).isNone then
      (state.vex.step locking event).map fun vex => ⟨vex,state.nativeCalls⟩
    else none
  | .interactionPoint t suspends =>
    if state.nativeCalls t = none then
      (state.vex.actor t Thread.isOutside).map fun _ => ⟨state.vex.suspendOnVexEntry t suspends,state.nativeCalls⟩
    else none
  | .wrappedWaitingStart t => startNative state t .wrappedWaiting fun _ => state.vex.onWrappedWaitingStart t
  | .wrappedWaitingEnd t suspends => endNative state t .wrappedWaiting fun _ => state.vex.onWrappedWaitingEnd t suspends
  | .wrappedTimedWaitingStart t objectId timeout nanoTimeout => startNative state t .wrappedTimedWaiting fun _ =>
      state.vex.onWrappedTimedWaitingStart t objectId (ensureTimeoutIsLessThanMax timeout nanoTimeout)
  | .wrappedTimedWaitingEnd t => endNative state t .wrappedTimedWaiting fun _ => state.vex.onWrappedTimedWaitingEnd t
  -- the lax protocol predicts nothing; the suspension before it is an interaction point
  | .ioStart t predicted => startNative state t .io fun thread =>
      state.vex.setIoThread t (!(predicted && decide (protocol = .normal))) thread
  | .ioEnd t suspends => endNative state t .io fun thread => state.vex.onIoEnd t protocol suspends thread
  | .continueIo t leapIsValid =>
    if t ∈ state.vex.runnableThreads then
      (state.vex.threadRegistry t).bind fun thread =>
        (state.vex.continueIoThread t leapIsValid thread).map fun vex => ⟨vex,state.nativeCalls⟩
    else none

def initial (locks : Locks) : State Locks := ⟨.start locks,fun _ => none⟩

/-! ## What must hold -/

/-- Suspended threads that are not being awakened, timed waits and predicted I/O. -/
def mustBeQueued (state : VexThreadState) : Bool :=
  (state.isSuspended && !state.awaken) || state.isTimedWaiting || decide (state.currentState = .inIo)

/-- Threads that must be queued are in the queue exactly once, and running ones are not in it. -/
structure Membership (vex : Vex Locks) : Prop where
  once : vex.runnableThreads.Nodup
  queued : ∀ t thread, vex.threadRegistry t = some thread → mustBeQueued thread.state = true →
    vex.runnableThreads.count t = 1
  running : ∀ t thread, vex.threadRegistry t = some thread → thread.state.currentState = .running →
    t ∉ vex.runnableThreads

/-- A waiting thread that the step suspends is queued exactly once, or is being awakened. -/
def SuspendsIntoQueue (vex next : Vex Locks) : Prop :=
  ∀ t thread after, vex.threadRegistry t = some thread → thread.state.isWaiting = true →
    next.threadRegistry t = some after → after.state.isSuspended = true →
      after.state.awaken = true ∨ next.runnableThreads.count t = 1

/-! ## When it holds -/

/-- An interrupt pushes the thread just if it is not queued. -/
def PushesMissing (vex : Vex Locks) (t : Int64) : Prop :=
  ∀ thread ∈ vex.threadRegistry t, (thread.state.timeout ≠ 0 ∧ thread.state.timeout ≠ -2) ↔ t ∈ vex.runnableThreads

def WaiterFits (vex : Vex Locks) (t : Int64) : Prop := isWaiting vex t = true → PushesMissing vex t

/-- The thread that a lock is handed to, once the releasing one has a timeout of zero. -/
def HandOffFits (locking : LockOperations Locks) (vex : Vex Locks) (t lockId : Int64) : Prop :=
  ∀ blockedThread ∈ (locking.releaseAndGetNext vex.lockRegistry lockId).1,
    PushesMissing (vex.onState t fun state => state.setTimeout 0) blockedThread

/-- A wait is announced that a mechanism outside VEX resumes. -/
def withoutLockRegistry : Position → Bool
  | .registered _ updateLockRegistry => !updateLockRegistry
  | _ => false

def EventFits (locking : LockOperations Locks) (vex : Vex Locks) : Event → Prop
  | .signal _ objectId => WaiterFits vex (vex.waitingOnObjectRegistry.findNext objectId.toInt32)
  | .broadcast _ objectId => ∀ t ∈ records vex objectId.toInt32, WaiterFits vex t
  | .interrupt t => WaiterFits vex t
  | .releaseLock t lockId => HandOffFits locking vex t lockId
  | .register t objectId updateLockRegistry => updateLockRegistry = true → HandOffFits locking vex t objectId
  -- without the lock registry the wait keeps the timeout of an earlier one
  | .wait t => ∀ thread ∈ vex.threadRegistry t, withoutLockRegistry thread.position = true → thread.state.timeout ≤ 0
  -- the end of a timed park does not push, that of an untimed one pushes or runs
  | .parked t _ => ∀ thread ∈ vex.threadRegistry t, 0 < thread.state.timeout ↔ t ∈ vex.runnableThreads
  | .suspendLoose t => t ∉ vex.runnableThreads
  | _ => True

def Fits (locking : LockOperations Locks) (protocol : IoProtocol) (state : State Locks) : Step → Prop
  | .event event => EventFits locking state.vex event
  | .wrappedWaitingEnd t _ => t ∉ state.vex.runnableThreads
  | .wrappedTimedWaitingEnd t => t ∈ state.vex.runnableThreads
  | .ioEnd t suspends => ∀ thread ∈ state.vex.threadRegistry t, match protocol with
    | .lax => t ∉ state.vex.runnableThreads
    | .normal => thread.state.currentState = .learningIo →
      if thread.state.timeout ≠ -1 then suspends = true → t ∈ state.vex.runnableThreads else t ∉ state.vex.runnableThreads
  | _ => True

section Decidable
variable (locking : LockOperations Locks) (vex : Vex Locks) (t : Int64)

instance : Decidable (PushesMissing vex t) :=
  inferInstanceAs (Decidable (∀ thread ∈ vex.threadRegistry t,
    (thread.state.timeout ≠ 0 ∧ thread.state.timeout ≠ -2) ↔ t ∈ vex.runnableThreads))

instance : Decidable (WaiterFits vex t) := inferInstanceAs (Decidable (isWaiting vex t = true → PushesMissing vex t))

instance (lockId : Int64) : Decidable (HandOffFits locking vex t lockId) :=
  -- by name: the bounded quantifier must not be decided by enumerating `Int64`
  Option.decidableForallMem (locking.releaseAndGetNext vex.lockRegistry lockId).1

instance decidableEventFits : (event : Event) → Decidable (EventFits locking vex event)
  | .signal _ objectId => inferInstanceAs (Decidable (WaiterFits vex (vex.waitingOnObjectRegistry.findNext objectId.toInt32)))
  | .broadcast _ objectId => List.decidableBAll (WaiterFits vex) (records vex objectId.toInt32)
  | .interrupt t => inferInstanceAs (Decidable (WaiterFits vex t))
  | .releaseLock t lockId => inferInstanceAs (Decidable (HandOffFits locking vex t lockId))
  | .register t objectId updateLockRegistry =>
    inferInstanceAs (Decidable (updateLockRegistry = true → HandOffFits locking vex t objectId))
  | .wait t => inferInstanceAs (Decidable (∀ thread ∈ vex.threadRegistry t,
      withoutLockRegistry thread.position = true → thread.state.timeout ≤ 0))
  | .parked t _ => inferInstanceAs (Decidable (∀ thread ∈ vex.threadRegistry t,
      0 < thread.state.timeout ↔ t ∈ vex.runnableThreads))
  | .suspendLoose t => inferInstanceAs (Decidable (t ∉ vex.runnableThreads))
  | .spawn _ _ _ _ | .ended _ | .suspend _ | .timedWait _ _ _ | .sleep _ _ _ | .requestLock _ _ | .park _ _ | .unpark _
  | .continueThread _ _ _ | .returnFromBlock _ => .isTrue trivial

instance decidableFits (state : State Locks) : (protocol : IoProtocol) → (move : Step) → Decidable (Fits locking protocol state move)
  | _, .event event => inferInstanceAs (Decidable (EventFits locking state.vex event))
  | _, .wrappedWaitingEnd t _ => inferInstanceAs (Decidable (t ∉ state.vex.runnableThreads))
  | _, .wrappedTimedWaitingEnd t => inferInstanceAs (Decidable (t ∈ state.vex.runnableThreads))
  | .lax, .ioEnd t _ => inferInstanceAs (Decidable (∀ thread ∈ state.vex.threadRegistry t, t ∉ state.vex.runnableThreads))
  | .normal, .ioEnd t suspends => inferInstanceAs (Decidable (∀ thread ∈ state.vex.threadRegistry t,
      thread.state.currentState = .learningIo →
        if thread.state.timeout ≠ -1 then suspends = true → t ∈ state.vex.runnableThreads else t ∉ state.vex.runnableThreads))
  | _, .interactionPoint _ _ | _, .wrappedWaitingStart _ | _, .wrappedTimedWaitingStart _ _ _ _ | _, .ioStart _ _
  | _, .continueIo _ _ => .isTrue trivial

end Decidable

/-! ## The invariant -/

private structure Placed (thread : Thread) (queued : Prop) : Prop where
  waits : mustBeQueued thread.state = true → queued
  runs : thread.state.isRunning = true → ¬ queued
  resumed : thread.blocked = true → thread.state.awaken = true → ¬ queued

private structure Settled (vex : Vex Locks) : Prop where
  distinct : vex.runnableThreads.Nodup
  registered : ∀ t ∈ vex.runnableThreads, ∃ thread, vex.threadRegistry t = some thread
  placed : ∀ t thread, vex.threadRegistry t = some thread → Placed thread (t ∈ vex.runnableThreads)

section Invariant
variable {locking : LockOperations Locks} {vex next : Vex Locks} {t : Int64} {thread after : Thread}

private theorem placed_queued {queued : Prop} (there : queued) (stopped : thread.state.isRunning = false)
    (asleep : thread.blocked = true → thread.state.awaken = false) : Placed thread queued :=
  ⟨fun _ => there,fun runs => by simp [stopped] at runs,fun blocked awake => by simp [asleep blocked] at awake⟩

private theorem placed_unqueued {queued : Prop} (absent : ¬ queued) (free : mustBeQueued thread.state = false) :
    Placed thread queued :=
  ⟨fun waits => by simp [free] at waits,fun _ => absent,fun _ _ => absent⟩

private theorem free_of_unqueued (settled : Settled vex) (found : vex.threadRegistry t = some thread)
    (unqueued : t ∉ vex.runnableThreads) : mustBeQueued thread.state = false := by
  by_contra waits
  exact unqueued ((settled.placed t thread found).waits (by simpa using waits))

/-- What a step of one thread has to show of it. -/
private structure Lands (t : Int64) (next : Vex Locks) (after : Thread) : Prop where
  found : next.threadRegistry t = some after
  distinct : next.runnableThreads.Nodup
  placed : Placed after (t ∈ next.runnableThreads)

private theorem settled_of_lands (settled : Settled vex) (keeps : ∀ x, x ≠ t → Keeps x vex next)
    (lands : ∃ after, Lands t next after) : Settled next := by
  obtain ⟨after,lands⟩ := lands
  refine ⟨lands.distinct,fun x queued => ?_,fun x thread found => ?_⟩
  · by_cases same : x = t
    · exact ⟨after,same ▸ lands.found⟩
    · rw [(keeps x same).thread]
      exact settled.registered x ((keeps x same).queued.mp queued)
  · by_cases same : x = t
    · subst same
      cases found.symm.trans lands.found
      exact lands.placed
    · rw [(keeps x same).thread] at found
      rw [(keeps x same).queued]
      exact settled.placed x thread found

/-- The three places: pushed, left in the queue, and left out of it. -/
private theorem lands_pushed (distinct : vex.runnableThreads.Nodup) (unqueued : t ∉ vex.runnableThreads)
    (queue : next.runnableThreads = vex.runnableThreads ++ [t]) (found : next.threadRegistry t = some after)
    (stopped : after.state.isRunning = false) (asleep : after.blocked = true → after.state.awaken = false) : Lands t next after := by
  refine ⟨found,?_,placed_queued ?_ stopped asleep⟩
  · rw [queue]
    refine List.nodup_append.mpr ⟨distinct,List.nodup_singleton t,fun x member other single same => unqueued ?_⟩
    rwa [← List.mem_singleton.mp single,← same]
  · simp [queue]

private theorem lands_queued (distinct : vex.runnableThreads.Nodup) (queued : t ∈ vex.runnableThreads)
    (queue : next.runnableThreads = vex.runnableThreads) (found : next.threadRegistry t = some after)
    (stopped : after.state.isRunning = false) (asleep : after.blocked = true → after.state.awaken = false) : Lands t next after :=
  ⟨found,queue ▸ distinct,placed_queued (queue ▸ queued) stopped asleep⟩

private theorem lands_unqueued (distinct : vex.runnableThreads.Nodup) (unqueued : t ∉ vex.runnableThreads)
    (queue : next.runnableThreads = vex.runnableThreads) (found : next.threadRegistry t = some after)
    (free : mustBeQueued after.state = false) : Lands t next after :=
  ⟨found,queue ▸ distinct,placed_unqueued (queue ▸ unqueued) free⟩

/-- The other parts of the state do not matter. -/
private theorem settled_of_same (settled : Settled vex) (threads : next.threadRegistry = vex.threadRegistry)
    (queue : next.runnableThreads = vex.runnableThreads) : Settled next := by
  refine ⟨queue ▸ settled.distinct,fun t queued => ?_,fun t thread found => ?_⟩
  · rw [threads]
    exact settled.registered t (queue ▸ queued)
  · rw [queue]
    exact settled.placed t thread (threads ▸ found)

/-- A change that keeps the place of the thread's state, whatever it is. -/
private theorem settled_onThread (settled : Settled vex) (f : Thread → Thread)
    (kept : ∀ thread, vex.threadRegistry t = some thread → Placed thread (t ∈ vex.runnableThreads) →
      Placed (f thread) (t ∈ vex.runnableThreads)) : Settled (vex.onThread t f) := by
  cases found : vex.threadRegistry t with
  | none =>
    have same : Function.update vex.threadRegistry t none = vex.threadRegistry := by
      rw [← found]
      exact Function.update_eq_self _ _
    exact settled_of_same settled (by simp [onThread,found,same]) rfl
  | some thread =>
    exact settled_of_lands settled (fun x other => onThread_keeps f other)
      ⟨_,onThread_self f found,settled.distinct,kept thread found (settled.placed t thread found)⟩

private theorem settled_onState (settled : Settled vex) (f : VexThreadState → VexThreadState)
    (kept : ∀ thread, vex.threadRegistry t = some thread → Placed thread (t ∈ vex.runnableThreads) →
      Placed { thread with state := f thread.state } (t ∈ vex.runnableThreads)) : Settled (vex.onState t f) :=
  settled_onThread settled _ kept

private theorem settled_setPosition (settled : Settled vex) (position : Position) : Settled (vex.setPosition t position) :=
  settled_onThread settled _ fun _ _ placed => ⟨placed.waits,placed.runs,placed.resumed⟩

private theorem lands_exit (lands : Lands t vex after) : ∃ last, Lands t (vex.onVexExit t) last := by
  have exited := onState_self VexThreadState.onVexExit lands.found
  exact ⟨_,setPosition_self .outside exited,lands.distinct,lands.placed.waits,lands.placed.runs,lands.placed.resumed⟩

/-! ## Suspensions and resumptions -/

private theorem free_of_running {state : VexThreadState} (runs : state.isRunning = true) : mustBeQueued state = false := by
  simp only [VexThreadState.isRunning,Bool.or_eq_true,decide_eq_true_eq] at runs
  rcases runs with running | inSystemCall
  · simp [mustBeQueued,VexThreadState.isSuspended,VexThreadState.isTimedWaiting,VexThreadState.isWaiting,running]
  · simp [mustBeQueued,VexThreadState.isSuspended,VexThreadState.isTimedWaiting,VexThreadState.isWaiting,inSystemCall]

private theorem setRunning_lands (found : vex.threadRegistry t = some thread) (distinct : vex.runnableThreads.Nodup)
    (unqueued : t ∉ vex.runnableThreads) : ∃ after, Lands t (vex.setRunningThread t) after := by
  obtain ⟨running,queue⟩ | ⟨queued,-⟩ | ⟨back,queue⟩ := setRunningThread_cases found
  · exact ⟨_,lands_unqueued distinct unqueued queue running (free_of_running rfl)⟩
  · exact absurd queued unqueued
  · exact ⟨_,lands_pushed distinct unqueued queue back rfl fun _ => rfl⟩

private theorem suspend_lands (found : vex.threadRegistry t = some thread) (distinct : vex.runnableThreads.Nodup)
    (unqueued : t ∉ vex.runnableThreads) (free : mustBeQueued thread.state = false) (suspends : Bool) :
    ∃ after, Lands t (vex.suspendCurrentThread t suspends) after := by
  obtain ⟨back,queue⟩ | same | running := suspendCurrentThread_cases suspends found
  · exact ⟨_,lands_pushed distinct unqueued queue back rfl fun _ => rfl⟩
  · rw [same]
    exact ⟨thread,found,distinct,placed_unqueued unqueued free⟩
  · rw [running]
    exact setRunning_lands found distinct unqueued

private theorem exit_lands (lands : ∃ after, Lands t vex after) :
    ∃ after, Lands t (if vex.isBlocked t then vex else vex.onVexExit t) after := by
  split
  · exact lands
  · obtain ⟨after,lands⟩ := lands
    exact lands_exit lands

private theorem suspendOnVexEntry_lands (found : vex.threadRegistry t = some thread)
    (distinct : vex.runnableThreads.Nodup) (unqueued : t ∉ vex.runnableThreads) (free : mustBeQueued thread.state = false) (suspends : Bool) :
    ∃ after, Lands t (vex.suspendOnVexEntry t suspends) after := by
  have entered : (vex.onState t VexThreadState.onVexEntry).threadRegistry t =
      some { thread with state := thread.state.onVexEntry } := onState_self _ found
  have lands : ∃ after, Lands t ((vex.onState t VexThreadState.onVexEntry).suspendCurrentThread t suspends) after :=
    suspend_lands entered distinct unqueued free suspends
  exact exit_lands lands

/-- A thread that is not suspended is erased before it runs. -/
private theorem suspendListed_lands (found : vex.threadRegistry t = some thread) (distinct : vex.runnableThreads.Nodup)
    (placed : Placed thread (t ∈ vex.runnableThreads)) (suspends : Bool)
    (listed : suspends = true → t ∈ vex.runnableThreads) : ∃ after, Lands t (vex.suspendListedThread t suspends) after := by
  unfold suspendListedThread
  split_ifs with stops runs
  · have suspended : (((vex.unsetCurrentThreadFromRunningThread t).onState t VexThreadState.setSuspended).onBlockedWaitingInVex
        t).threadRegistry t = some { thread with state := thread.state.setSuspended.blockHereUntilSignaled,blocked := true } := by
      simp [onBlockedWaitingInVex,onState,setBlocked,onThread,found]
    exact ⟨_,lands_queued distinct (listed stops) (by simp [onBlockedWaitingInVex,onState,setBlocked,onThread]) suspended rfl fun _ => rfl⟩
  · exact ⟨thread,found,distinct,placed⟩
  · exact setRunning_lands found (distinct.erase t) distinct.not_mem_erase

/-! ## Interrupts -/

private theorem interrupt_settled (settled : Settled vex) (pushes : PushesMissing vex t) :
    Settled (vex.onAnyReplacedWaitingInterrupt t) := by
  cases found : vex.threadRegistry t with
  | none => rwa [interrupt_absent found]
  | some thread =>
    have place := pushes thread found
    have queue := interrupt_queue found
    have interrupted := interrupt_thread found
    rw [VexThreadState.beforeThreadInterrupt_eq] at interrupted
    refine settled_of_lands settled (fun x other => onAnyReplacedWaitingInterrupt_keeps other) ?_
    by_cases updated : thread.state.timeout ≠ 0 ∧ thread.state.timeout ≠ -2
    · rw [if_pos updated] at queue
      exact ⟨_,lands_queued settled.distinct (place.mp updated) queue interrupted rfl fun _ => rfl⟩
    · rw [if_neg updated] at queue
      exact ⟨_,lands_pushed settled.distinct (mt place.mpr updated) queue interrupted rfl fun _ => rfl⟩

private theorem interruptThread_settled (settled : Settled vex) (isThreadInterruptCall : Bool) (fits : WaiterFits vex t) :
    Settled (vex.interruptThread t isThreadInterruptCall).2 := by
  cases waits : isWaiting vex t with
  | false => rwa [interruptThread_idle isThreadInterruptCall waits]
  | true =>
    rw [interruptThread_waiting isThreadInterruptCall waits]
    exact settled_onState (interrupt_settled settled (fits waits)) _ fun _ _ placed =>
      ⟨placed.waits,placed.runs,placed.resumed⟩

private theorem signal_settled (settled : Settled vex) (manager : Nat) (objectId : Int64)
    (fits : WaiterFits vex (vex.waitingOnObjectRegistry.findNext objectId.toInt32)) :
    Settled (vex.onSignallingOneThreadOnObject manager objectId).2 := by
  unfold onSignallingOneThreadOnObject
  dsimp only
  split_ifs
  · exact interruptThread_settled settled false fits
  · exact settled_of_same settled rfl rfl

/-- A record's thread is as it was before the round, or is suspended by now. -/
private theorem broadcast_settled (settled : Settled vex) (manager : Nat) (objectId : Int64)
    (fits : ∀ t ∈ records vex objectId.toInt32, WaiterFits vex t) :
    Settled (vex.onSignallingAllThreadsOnObject manager objectId).2 := by
  unfold onSignallingAllThreadsOnObject
  split_ifs
  · exact settled_of_same settled rfl rfl
  · refine (@broadcast_rule _ _ (fun vex => Settled vex ∧ ∀ t ∈ records vex objectId.toInt32, WaiterFits vex t) objectId
      ?_ _ ⟨settled,fits⟩).1
    rintro vex t recorded ⟨settled,fits⟩ popped fewer
    have fitsPopped : WaiterFits popped t := fits t recorded
    have settledPopped : Settled popped := settled_of_same settled rfl rfl
    refine ⟨interruptThread_settled settledPopped false fitsPopped,fun x member waits => ?_⟩
    by_cases same : x = t
    · subst same
      cases before : isWaiting popped x with
      | false =>
        rw [interruptThread_idle false before] at waits
        rw [before] at waits
        cases waits
      | true =>
        obtain ⟨thread,found,waiting⟩ : ∃ thread, popped.threadRegistry x = some thread ∧ thread.state.isWaiting = true :=
          (Option.any_eq_true _ _).mp before
        rw [isWaiting_of_found (interruptThread_thread false found waiting),VexThreadState.beforeThreadInterrupt_eq] at waits
        cases waits
    · have keeps : Keeps x popped (popped.interruptThread t false).2 := interruptThread_keeps false same
      intro thread found
      rw [keeps.thread] at found
      have waitsBefore : isWaiting popped x = true := by
        unfold isWaiting at waits ⊢
        rwa [keeps.thread] at waits
      rw [keeps.queued]
      exact fits x (fewer member) waitsBefore thread found

private theorem release_settled {lockId : Int64} (settled : Settled vex) (found : vex.threadRegistry t = some thread)
    (runs : thread.state.isRunning = true) (fits : HandOffFits locking vex t lockId) :
    Settled (vex.onLocklessReleasingLock locking t lockId) := by
  unfold onLocklessReleasingLock
  dsimp only
  split
  · next blockedThread next =>
    have unlocked : Settled (vex.setLocks (locking.releaseAndGetNext vex.lockRegistry lockId).2) :=
      settled_of_same settled rfl rfl
    have reset := @settled_onState _ _ t unlocked (fun state => state.setTimeout 0) fun other foundOther placed => by
      cases found.symm.trans foundOther
      exact placed_unqueued (placed.runs runs) (free_of_running runs)
    exact interrupt_settled reset (fits blockedThread next)
  · exact settled_of_same settled rfl rfl

/-! ## Calls -/

private theorem unqueued_of_running (settled : Settled vex) (found : vex.threadRegistry t = some thread)
    (runs : thread.state.isRunning = true) : t ∉ vex.runnableThreads := (settled.placed t thread found).runs runs

private theorem running_of_free (free : thread.isFree = true) : thread.state.isRunning = true := by
  simp only [Thread.isFree,Bool.and_eq_true] at free
  exact free.2

private theorem running_of_outside (outside : thread.isOutside = true) : thread.state.isRunning = true := by
  simp only [Thread.isOutside,Bool.and_eq_true] at outside
  exact running_of_free outside.1

private theorem onReplacedWaiting_queue : (vex.onReplacedWaiting t).runnableThreads = vex.runnableThreads := by
  simp [onReplacedWaiting,onBlockedWaitingInVex,onState,setBlocked,onThread]

private theorem waitStart_lands (objectId : Int64) (updateLockRegistry : Bool) (found : vex.threadRegistry t = some thread)
    (distinct : vex.runnableThreads.Nodup) (unqueued : t ∉ vex.runnableThreads)
    (expired : updateLockRegistry = false → thread.state.timeout ≤ 0) :
    ∃ after, Lands t (vex.onReplacedWaitingStart t objectId updateLockRegistry) after := by
  have called := onState_self (fun state => ((state.onVexEntry.setTimedOut true).setWaitingObjectId objectId).setWaiting) found
  have same (state : VexThreadState) : (state.setWaitingObjectId objectId).timeout = state.timeout := by
    unfold VexThreadState.setWaitingObjectId
    split <;> rfl
  unfold onReplacedWaitingStart
  dsimp only
  cases updateLockRegistry with
  | true =>
    have reset := onState_self (fun state => state.setTimeout (-2)) called
    have waiting := onReplacedWaiting_self (setPosition_self (.replacedWaiting objectId true) reset)
    refine ⟨_,lands_unqueued distinct unqueued onReplacedWaiting_queue waiting ?_⟩
    rfl
  | false =>
    have waiting := onReplacedWaiting_self (setPosition_self (.replacedWaiting objectId false) called)
    refine ⟨_,lands_unqueued distinct unqueued onReplacedWaiting_queue waiting ?_⟩
    have untimed := expired rfl
    simp only [mustBeQueued,VexThreadState.isSuspended,VexThreadState.isTimedWaiting,VexThreadState.isWaiting,
      VexThreadState.blockHereUntilSignaled,VexThreadState.setAwaken,VexThreadState.setWaiting,VexThreadState.setNewState,
      same,VexThreadState.setTimedOut,VexThreadState.onVexEntry]
    simpa using untimed

private theorem timedWaitStart_lands (objectId timeout : Int64) (position : Position) (found : vex.threadRegistry t = some thread)
    (distinct : vex.runnableThreads.Nodup) (unqueued : t ∉ vex.runnableThreads) :
    ∃ after, Lands t (vex.onReplacedTimedWaitingStart t objectId timeout position) after := by
  have called := onState_self (fun state => (state.onVexEntry.setWaitingObjectId objectId).setTimedWaiting timeout) found
  have waiting := onReplacedTimedWaiting_self (setPosition_self position called)
  refine ⟨_,lands_pushed distinct unqueued ?_ waiting rfl fun _ => rfl⟩
  simp [onReplacedTimedWaitingStart,onReplacedTimedWaiting,setTimedWaitingThread,onBlockedWaitingInVex,onState,setPosition,
    setBlocked,onThread,pushRunnable]

private theorem requestLock_lands (lockId : Int64) (found : vex.threadRegistry t = some thread)
    (distinct : vex.runnableThreads.Nodup) (unqueued : t ∉ vex.runnableThreads) (runs : thread.state.isRunning = true) :
    ∃ after, Lands t (vex.onLocklessRequestingLock locking t lockId) after := by
  unfold onLocklessRequestingLock
  dsimp only
  split_ifs
  · exact lands_exit ⟨found,distinct,placed_unqueued unqueued (free_of_running runs)⟩
  · have queued : (vex.setLocks (locking.tryAcquiringLock vex.lockRegistry t lockId).2).threadRegistry t = some thread := found
    have blocked := onReplacedWaiting_self (setPosition_self (.requestingLock lockId) queued)
    refine ⟨_,lands_unqueued distinct unqueued onReplacedWaiting_queue blocked ?_⟩
    exact free_of_running runs

private theorem setTimedWaiting_queue : (vex.setTimedWaitingThread t).runnableThreads = vex.runnableThreads ++ [t] := by
  simp [setTimedWaitingThread,onState,onThread,pushRunnable]

private theorem setTimedWaiting_self (found : vex.threadRegistry t = some thread) :
    (vex.setTimedWaitingThread t).threadRegistry t = some { thread with state := thread.state.setWaiting } := by
  simp [setTimedWaitingThread,onState,onThread,pushRunnable,found]

/-- A thread that starts an untimed wait, native or not, is left out of the queue. -/
private theorem unset_lands (found : vex.threadRegistry t = some thread) (distinct : vex.runnableThreads.Nodup)
    (unqueued : t ∉ vex.runnableThreads) (free : mustBeQueued thread.state = false) :
    Lands t (vex.unsetCurrentThreadFromRunningThread t) thread :=
  lands_unqueued distinct unqueued unset_runnableThreads (by rw [unset_threadRegistry,found]) free

private theorem park_lands (timeout : Int64) (found : vex.threadRegistry t = some thread)
    (distinct : vex.runnableThreads.Nodup) (unqueued : t ∉ vex.runnableThreads) (runs : thread.state.isRunning = true) :
    ∃ after, Lands t (vex.onPark t timeout thread) after := by
  have flagged := setPosition_self .parking (onState_self (fun _ => thread.state.getAndSetUnparkedState.2) found)
  unfold onPark
  dsimp only
  split_ifs
  · refine ⟨_,flagged,distinct,placed_unqueued unqueued (free_of_running ?_)⟩
    have same : thread.state.getAndSetUnparkedState.2.isRunning = thread.state.isRunning := by
      unfold VexThreadState.getAndSetUnparkedState
      split <;> rfl
    exact same.trans runs
  · have called := onState_self (fun state => { state.setWaitingObjectId 0 with waitingInRealTime := true }.setTimedWaiting timeout)
      flagged
    exact ⟨_,lands_pushed distinct unqueued setTimedWaiting_queue (setTimedWaiting_self called) rfl fun _ => rfl⟩
  · have called := onState_self (fun state =>
      (((state.setTimedOut true).setTimeout (-1)).setAwakeningFromJoin false).setWaiting) flagged
    exact ⟨_,unset_lands called distinct unqueued rfl⟩

private theorem block_lands (found : vex.threadRegistry t = some thread) (distinct : vex.runnableThreads.Nodup)
    (queued : t ∈ vex.runnableThreads) (stopped : thread.state.isRunning = false) :
    ∃ after, Lands t (vex.onBlockedWaitingInVex t) after := by
  have blocked : (vex.onBlockedWaitingInVex t).threadRegistry t =
      some { thread with state := thread.state.blockHereUntilSignaled,blocked := true } := by
    simp [onBlockedWaitingInVex,onState,setBlocked,onThread,found]
  exact ⟨_,lands_queued distinct queued rfl blocked stopped fun _ => rfl⟩

/-- A timeout of -1 takes no thread out of the queue that must be in it. -/
private theorem free_of_untimed {state : VexThreadState} (free : mustBeQueued state = false) :
    mustBeQueued (((state.setTimeout (-1)).setAwakeningFromJoin false).setTimedOut true) = false := by
  simp only [mustBeQueued,VexThreadState.isSuspended,VexThreadState.isTimedWaiting,Bool.or_eq_false_iff] at free ⊢
  refine ⟨⟨free.1.1,?_⟩,free.2⟩
  simp [VexThreadState.setTimeout,VexThreadState.setAwakeningFromJoin,VexThreadState.setTimedOut]

private theorem parked_lands (suspends : Bool) (settled : Settled vex) (found : vex.threadRegistry t = some thread)
    (fits : 0 < thread.state.timeout ↔ t ∈ vex.runnableThreads) : ∃ after, Lands t (vex.onParked t suspends thread) after := by
  have entered := setPosition_self .outside (onState_self VexThreadState.onVexEntry found)
  unfold onParked
  dsimp only
  by_cases timed : thread.state.timeout > 0
  · rw [if_pos timed]
    have ended := onState_self (fun state => ({ state with waitingInRealTime := false }.setTimedOut true).setSuspended) entered
    exact block_lands ended settled.distinct (fits.mp timed) rfl
  · rw [if_neg timed]
    have unqueued : t ∉ vex.runnableThreads := mt fits.mpr timed
    have ended := onState_self (fun state => ((state.setTimeout (-1)).setAwakeningFromJoin false).setTimedOut true) entered
    have free : mustBeQueued thread.state.onVexEntry = false := free_of_unqueued settled found unqueued
    exact exit_lands (suspend_lands ended settled.distinct unqueued (free_of_untimed free) suspends)

private theorem unpark_settled (settled : Settled vex) (found : vex.threadRegistry t = some thread) :
    Settled (vex.onUnpark t thread) := by
  have flagged : Settled (vex.onState t fun _ => thread.state.getAndSetParkedState.2) := by
    refine settled_onState settled _ fun other foundOther placed => ?_
    cases found.symm.trans foundOther
    unfold VexThreadState.getAndSetParkedState
    split
    · exact ⟨placed.waits,placed.runs,placed.resumed⟩
    · exact ⟨placed.waits,placed.runs,placed.resumed⟩
  have sameTimeout : thread.state.getAndSetParkedState.2.timeout = thread.state.timeout := by
    unfold VexThreadState.getAndSetParkedState
    split <;> rfl
  unfold onUnpark
  dsimp only
  split_ifs with parked timed
  · exact settled_onState flagged _ fun _ _ placed => ⟨placed.waits,placed.runs,placed.resumed⟩
  · refine settled_onState flagged _ fun other foundOther placed => ?_
    -- it waits without a timeout from now on
    have untimed : ¬ 0 < other.state.timeout := by
      cases (onState_self (fun _ => thread.state.getAndSetParkedState.2) found).symm.trans foundOther
      rwa [sameTimeout]
    refine ⟨fun waits => ?_,fun runs => ?_,fun _ awake => ?_⟩
    · rw [VexThreadState.beforeThreadInterrupt_eq] at waits
      by_cases negative : other.state.timeout < 0
      · simp [mustBeQueued,VexThreadState.isSuspended,VexThreadState.isTimedWaiting,VexThreadState.setWaiting,
          VexThreadState.setNewState,VexThreadState.setTimedOut,negative] at waits
      · simp [mustBeQueued,VexThreadState.isSuspended,VexThreadState.isTimedWaiting,VexThreadState.setWaiting,
          VexThreadState.setNewState,VexThreadState.setTimedOut,negative,untimed] at waits
    · rw [VexThreadState.beforeThreadInterrupt_eq] at runs
      cases runs
    · rw [VexThreadState.beforeThreadInterrupt_eq] at awake
      cases awake
  · exact flagged

/-! ## The scheduler's moves, and the events -/

/-- A popped thread is resumed or left out of the queue. -/
private theorem resume_lands {manager : Nat} (found : vex.threadRegistry t = some thread)
    (distinct : vex.runnableThreads.Nodup) (unqueued : t ∉ vex.runnableThreads) (suspended : thread.state.isSuspended = true)
    (resumed : vex.resumeThread t manager = some next) : ∃ after, Lands t next after := by
  obtain ⟨-,queue,after⟩ := resumeThread_self found resumed
  refine ⟨_,lands_unqueued distinct unqueued queue after ?_⟩
  simp only [VexThreadState.isSuspended,decide_eq_true_eq] at suspended
  simp [mustBeQueued,VexThreadState.onThreadResumeByManager,VexThreadState.setAwaken,VexThreadState.isTimedWaiting,
    VexThreadState.isWaiting,suspended]

private theorem repush_lands (settled : Settled vex) (found : vex.threadRegistry t = some thread)
    (queued : t ∈ vex.runnableThreads) : ∃ after, Lands t ((vex.popRunnable t).pushRunnable t) after := by
  have placed := settled.placed t thread found
  have stopped : thread.state.isRunning = false := by simpa using mt placed.runs (not_not.mpr queued)
  have asleep (blocked : thread.blocked = true) : thread.state.awaken = false := by
    simpa using mt (placed.resumed blocked) (not_not.mpr queued)
  have popped : (vex.popRunnable t).runnableThreads.Nodup := settled.distinct.erase t
  exact ⟨thread,lands_pushed popped settled.distinct.not_mem_erase rfl found stopped asleep⟩

private theorem continue_lands {manager : Nat} {leapIsValid : Bool} (settled : Settled vex)
    (found : vex.threadRegistry t = some thread) (continued : vex.continueThread t manager leapIsValid = some next) :
    ∃ after, Lands t next after := by
  have popped : (vex.popRunnable t).threadRegistry t = some thread := found
  have distinct : (vex.popRunnable t).runnableThreads.Nodup := settled.distinct.erase t
  have unqueued : t ∉ (vex.popRunnable t).runnableThreads := settled.distinct.not_mem_erase
  unfold continueThread at continued
  simp only [found] at continued
  split_ifs at continued with queued suspended resumable timed waiting
  · exact resume_lands popped distinct unqueued suspended continued
  · cases continued
    exact repush_lands settled found queued
  · unfold interruptTimedWaitingThread at continued
    split_ifs at continued with leaps
    · have interrupted := interrupt_thread popped
      rw [VexThreadState.beforeThreadInterrupt_eq] at interrupted
      have expired := onState_self (fun state => state.setTimedOut true) interrupted
      have positive : 0 < thread.state.timeout := by
        simp only [VexThreadState.isTimedWaiting,Bool.and_eq_true,decide_eq_true_eq] at timed
        exact timed.2
      have queue : ((vex.popRunnable t).onAnyReplacedWaitingInterrupt t).runnableThreads = (vex.popRunnable t).runnableThreads := by
        rw [interrupt_queue popped,if_pos]
        constructor
        · rintro zero
          rw [zero] at positive
          exact absurd positive (by decide)
        · rintro simulated
          rw [simulated] at positive
          exact absurd positive (by decide)
      exact resume_lands expired (queue ▸ distinct) (queue ▸ unqueued) rfl continued
    · cases continued
      exact repush_lands settled found queued
  · cases continued
    refine ⟨thread,popped,distinct,placed_unqueued unqueued ?_⟩
    simp only [VexThreadState.isWaiting,decide_eq_true_eq] at waiting
    simp only [mustBeQueued,timed,VexThreadState.isSuspended,waiting]
    rfl

private theorem return_lands (settled : Settled vex) (found : vex.threadRegistry t = some thread)
    (blocked : thread.blocked = true) (awake : thread.state.awaken = true) : ∃ after, Lands t (vex.returnFromBlock locking t thread) after := by
  have unqueued : t ∉ vex.runnableThreads := (settled.placed t thread found).resumed blocked awake
  have lands := setRunning_lands found settled.distinct unqueued
  unfold returnFromBlock
  dsimp only
  split_ifs with suspended
  · exact lands
  · -- the thread runs
    obtain ⟨running,queue⟩ | ⟨queued,-⟩ | ⟨back,-⟩ := setRunningThread_cases found
    · have distinct : (vex.setRunningThread t).runnableThreads.Nodup := queue ▸ settled.distinct
      have stillUnqueued : t ∉ (vex.setRunningThread t).runnableThreads := queue ▸ unqueued
      have exits : ∃ after, Lands t ((vex.setRunningThread t).onVexExit t) after :=
        lands_exit ⟨running,distinct,placed_unqueued stillUnqueued (free_of_running rfl)⟩
      cases thread.position with
      | outside | sleeping | requestingLock lockId => exact exits
      | registered objectId updateLockRegistry | parking => exact lands
      | replacedWaiting objectId updateLockRegistry =>
        simp only [onReplacedWaitingEnd]
        split_ifs
        · exact requestLock_lands objectId (onState_self (fun state => state.setTimeout (-1)) running) distinct stillUnqueued rfl
        · exact exits
      | replacedTimedWaiting objectId updateLockRegistry =>
        simp only [onReplacedTimedWaitingEnd]
        split_ifs
        · exact requestLock_lands objectId running distinct stillUnqueued rfl
        · exact exits
    · exact absurd queued unqueued
    · exact absurd (by simp [isBlocked,back,pushed]) suspended

private theorem ended_settled (settled : Settled vex) (unqueued : t ∉ vex.runnableThreads) : Settled (vex.onThreadEnd t) := by
  have queue : (vex.onThreadEnd t).runnableThreads = vex.runnableThreads := unset_runnableThreads
  have others {x : Int64} (other : x ≠ t) : (vex.onThreadEnd t).threadRegistry x = vex.threadRegistry x :=
    (onThreadEnd_keeps other).thread
  refine ⟨queue ▸ settled.distinct,fun x queued => ?_,fun x thread found => ?_⟩
  · rw [queue] at queued
    have other : x ≠ t := by
      rintro rfl
      exact unqueued queued
    rw [others other]
    exact settled.registered x queued
  · have other : x ≠ t := by
      rintro rfl
      simp [onThreadEnd,setThread] at found
    rw [others other] at found
    rw [queue]
    exact settled.placed x thread found

private theorem event_settled {event : Event} (settled : Settled vex) (fits : EventFits locking vex event)
    (stepped : vex.step locking event = some next) : Settled next := by
  have others {t : Int64} (named : event.thread = some t) (calm : event.interruptsOthers = false) (x : Int64) (other : x ≠ t) :
      Keeps x vex next :=
    step_keeps stepped (fun same => other (Option.some.inj (same.symm.trans named))) calm
  cases event with
  | spawn t manager timedWaitingObjectId suspends =>
    refine settled_of_lands settled (others rfl rfl) ?_
    simp only [Vex.step,Option.ite_none_right_eq_some,Option.some.injEq] at stepped
    obtain ⟨⟨-,absent⟩,rfl⟩ := stepped
    have unqueued : t ∉ vex.runnableThreads := by
      intro queued
      obtain ⟨thread,found⟩ := settled.registered t queued
      simp [absent] at found
    have found : (vex.setThread t (some ⟨.init timedWaitingObjectId,manager,false,.outside⟩)).threadRegistry t =
        some ⟨.init timedWaitingObjectId,manager,false,.outside⟩ := by simp [setThread]
    exact suspend_lands found settled.distinct unqueued rfl suspends
  | ended t =>
    obtain ⟨thread,acting,rfl⟩ := Option.map_eq_some_iff.mp stepped
    obtain ⟨found,free⟩ := actor_eq acting
    exact ended_settled settled (unqueued_of_running settled found (running_of_free free))
  | suspend t =>
    refine settled_of_lands settled (others rfl rfl) ?_
    simp only [Vex.step,Option.ite_none_right_eq_some] at stepped
    obtain ⟨thread,acting,rfl⟩ := Option.map_eq_some_iff.mp stepped.2
    obtain ⟨found,free⟩ := actor_eq acting
    have queue : (vex.suspendThread t).runnableThreads = vex.runnableThreads ++ [t] := by
      simp [suspendThread,onBlockedWaitingInVex,onState,setBlocked,onThread,pushRunnable]
    exact ⟨_,lands_pushed settled.distinct (unqueued_of_running settled found (running_of_free free)) queue
      (suspendThread_self found) rfl fun _ => rfl⟩
  | suspendLoose t =>
    refine settled_of_lands settled (others rfl rfl) ?_
    obtain ⟨thread,acting,rfl⟩ := Option.map_eq_some_iff.mp stepped
    have entered := onState_self VexThreadState.onVexEntry (actor_eq acting).1
    unfold suspendLooseCurrentThread
    split_ifs
    · exact setRunning_lands entered settled.distinct fits
    · exact ⟨_,lands_pushed settled.distinct fits suspend_queue (suspend_self entered) rfl fun _ => rfl⟩
  | register t objectId updateLockRegistry =>
    obtain ⟨thread,acting,rfl⟩ := Option.map_eq_some_iff.mp stepped
    obtain ⟨found,outside⟩ := actor_eq acting
    have inserted : Settled (vex.setRegistry (vex.waitingOnObjectRegistry.insert objectId.toInt32 t)) :=
      settled_of_same settled rfl rfl
    unfold beforeReleasingLockOfAnyReplacedWaiting
    dsimp only
    refine settled_setPosition ?_ _
    split_ifs with updates
    · exact release_settled inserted found (running_of_outside outside) (fits updates)
    · exact inserted
  | wait t =>
    refine settled_of_lands settled (others rfl rfl) ?_
    obtain ⟨thread,acting,started⟩ := Option.bind_eq_some_iff.mp stepped
    obtain ⟨found,free⟩ := actor_eq acting
    split at started
    · next objectId updateLockRegistry position =>
      cases started
      exact waitStart_lands objectId updateLockRegistry found settled.distinct
        (unqueued_of_running settled found (running_of_free free)) fun simulated =>
          fits thread found (by rw [position,simulated]; rfl)
    · cases started
  | timedWait t timeout nanoTimeout =>
    refine settled_of_lands settled (others rfl rfl) ?_
    obtain ⟨thread,acting,started⟩ := Option.bind_eq_some_iff.mp stepped
    obtain ⟨found,free⟩ := actor_eq acting
    split at started
    · cases started
      exact timedWaitStart_lands _ _ _ found settled.distinct (unqueued_of_running settled found (running_of_free free))
    · cases started
  | sleep t timeout nanoTimeout =>
    refine settled_of_lands settled (others rfl rfl) ?_
    obtain ⟨thread,acting,rfl⟩ := Option.map_eq_some_iff.mp stepped
    obtain ⟨found,outside⟩ := actor_eq acting
    exact timedWaitStart_lands _ _ _ found settled.distinct (unqueued_of_running settled found (running_of_outside outside))
  | signal manager objectId =>
    cases stepped
    exact signal_settled settled manager objectId fits
  | broadcast manager objectId =>
    cases stepped
    exact broadcast_settled settled manager objectId fits
  | interrupt t =>
    cases stepped
    exact interruptThread_settled settled true fits
  | requestLock t lockId =>
    refine settled_of_lands settled (others rfl rfl) ?_
    obtain ⟨thread,acting,rfl⟩ := Option.map_eq_some_iff.mp stepped
    obtain ⟨found,outside⟩ := actor_eq acting
    have runs := running_of_outside outside
    exact requestLock_lands lockId found settled.distinct (unqueued_of_running settled found runs) runs
  | releaseLock t lockId =>
    obtain ⟨thread,acting,rfl⟩ := Option.map_eq_some_iff.mp stepped
    obtain ⟨found,outside⟩ := actor_eq acting
    exact release_settled settled found (running_of_outside outside) fits
  | park t timeout =>
    refine settled_of_lands settled (others rfl rfl) ?_
    obtain ⟨thread,acting,rfl⟩ := Option.map_eq_some_iff.mp stepped
    obtain ⟨found,outside⟩ := actor_eq acting
    have runs := running_of_outside outside
    exact park_lands timeout found settled.distinct (unqueued_of_running settled found runs) runs
  | parked t suspends =>
    refine settled_of_lands settled (others rfl rfl) ?_
    obtain ⟨thread,acting,rfl⟩ := Option.map_eq_some_iff.mp stepped
    have found := (actor_eq acting).1
    exact parked_lands suspends settled found (fits thread found)
  | unpark t =>
    simp only [Vex.step] at stepped
    split at stepped
    · next thread found =>
      cases stepped
      exact unpark_settled settled found
    · cases stepped
      exact settled
  | continueThread manager t leapIsValid =>
    refine settled_of_lands settled (others rfl rfl) ?_
    cases found : vex.threadRegistry t with
    | none => simp [Vex.step,continueThread,found] at stepped
    | some thread => exact continue_lands settled found stepped
  | returnFromBlock t =>
    refine settled_of_lands settled (others rfl rfl) ?_
    obtain ⟨thread,acting,rfl⟩ := Option.map_eq_some_iff.mp stepped
    obtain ⟨found,may⟩ := actor_eq acting
    simp only [Bool.and_eq_true] at may
    exact return_lands settled found may.1 may.2

/-! ## Native calls -/

private theorem suspendOnVexEntry_keeps {suspends : Bool} {x : Int64} (other : x ≠ t) :
    Keeps x vex (vex.suspendOnVexEntry t suspends) := by
  have entered : Keeps x vex ((vex.onState t VexThreadState.onVexEntry).suspendCurrentThread t suspends) :=
    (onState_keeps _ other).trans (suspendCurrentThread_keeps suspends other)
  unfold suspendOnVexEntry
  dsimp only
  split_ifs
  · exact entered
  · exact entered.trans (onVexExit_keeps other)

private theorem suspendListed_keeps {suspends : Bool} {x : Int64} (other : x ≠ t) :
    Keeps x vex (vex.suspendListedThread t suspends) := by
  unfold suspendListedThread
  split_ifs
  · exact (unset_keeps.trans (onState_keeps _ other)).trans (onBlockedWaitingInVex_keeps other)
  · exact .refl x vex
  · exact (popRunnable_keeps other).trans (setRunningThread_keeps other)

private theorem setIoThread_keeps {learning : Bool} {x : Int64} (other : x ≠ t) : Keeps x vex (vex.setIoThread t learning thread) := by
  unfold setIoThread
  dsimp only
  split_ifs
  · exact unset_keeps.trans (onState_keeps _ other)
  · exact (unset_keeps.trans (onState_keeps _ other)).trans (pushRunnable_keeps other)

private theorem onIoEnd_keeps {protocol : IoProtocol} {suspends : Bool} {x : Int64} (other : x ≠ t) :
    Keeps x vex (vex.onIoEnd t protocol suspends thread) := by
  have exits {middle : Vex Locks} (kept : Keeps x vex middle) :
      Keeps x vex (if middle.isBlocked t then middle else middle.onVexExit t) := by
    split
    · exact kept
    · exact kept.trans (onVexExit_keeps other)
  unfold onIoEnd
  dsimp only
  refine exits ?_
  cases protocol with
  | lax => exact suspendCurrentThread_keeps suspends other
  | normal =>
    dsimp only
    split_ifs
    · exact (onState_keeps _ other).trans (suspendListed_keeps other)
    · exact suspendCurrentThread_keeps suspends other
    · exact suspendListed_keeps other
    · exact .refl x vex

private theorem setIo_lands (learning : Bool) (found : vex.threadRegistry t = some thread)
    (distinct : vex.runnableThreads.Nodup) (unqueued : t ∉ vex.runnableThreads) (unblocked : thread.blocked = false) :
    ∃ after, Lands t (vex.setIoThread t learning thread) after := by
  have unset : (vex.unsetCurrentThreadFromRunningThread t).threadRegistry t = some thread := by rw [unset_threadRegistry,found]
  have called := onState_self (fun state => state.setIo learning) unset
  have queue : ((vex.unsetCurrentThreadFromRunningThread t).onState t fun state =>
      state.setIo learning).runnableThreads = vex.runnableThreads := unset_runnableThreads
  unfold setIoThread
  dsimp only
  split_ifs with untimed
  · refine ⟨_,lands_unqueued distinct unqueued queue called ?_⟩
    rw [untimed.1]
    rfl
  · refine ⟨_,lands_pushed distinct unqueued (congrArg (· ++ [t]) queue) called ?_ fun blocked => ?_⟩
    · cases learning <;> rfl
    · rw [unblocked] at blocked
      cases blocked

private theorem continueIo_lands {leapIsValid : Bool} (settled : Settled vex) (found : vex.threadRegistry t = some thread)
    (queued : t ∈ vex.runnableThreads) (continued : vex.continueIoThread t leapIsValid thread = some next) :
    ∃ after, Lands t next after := by
  unfold continueIoThread at continued
  split_ifs at continued with predicted learning leaps
  · cases continued
    exact ⟨thread,found,settled.distinct,settled.placed t thread found⟩
  · cases continued
    have popped : (vex.popRunnable t).threadRegistry t = some thread := found
    refine ⟨_,onState_self (fun state => state.setTimedOut true) popped,settled.distinct.erase t,
      placed_unqueued settled.distinct.not_mem_erase ?_⟩
    simp [mustBeQueued,VexThreadState.isSuspended,VexThreadState.isTimedWaiting,VexThreadState.isWaiting,
      VexThreadState.setTimedOut,learning.1]
  · cases continued
    exact repush_lands settled found queued

private theorem continueIo_keeps {leapIsValid : Bool} {x : Int64} (other : x ≠ t)
    (continued : vex.continueIoThread t leapIsValid thread = some next) : Keeps x vex next := by
  unfold continueIoThread at continued
  split_ifs at continued
  · cases continued
    exact .refl x vex
  · cases continued
    exact (popRunnable_keeps other).trans (onState_keeps _ other)
  · cases continued
    exact (popRunnable_keeps other).trans (pushRunnable_keeps other)

private theorem erased_queue (f : VexThreadState → VexThreadState) :
    ((vex.eraseWaitingObjectIdFromRegistry t).onState t f).runnableThreads = vex.runnableThreads := erase_runnableThreads

private theorem learning_placed {queued : Prop} (placed : Placed thread queued) (learning : thread.state.currentState = .learningIo) :
    Placed { thread with state := thread.state.setTimeout (-1) } queued := by
  refine ⟨fun waits => ?_,placed.runs,placed.resumed⟩
  simp [mustBeQueued,VexThreadState.isSuspended,VexThreadState.isTimedWaiting,VexThreadState.isWaiting,
    VexThreadState.setTimeout,learning] at waits

private theorem ioEnd_lands {protocol : IoProtocol} {suspends : Bool} (settled : Settled vex)
    (found : vex.threadRegistry t = some thread) (fits : match protocol with
      | .lax => t ∉ vex.runnableThreads
      | .normal => thread.state.currentState = .learningIo →
        if thread.state.timeout ≠ -1 then suspends = true → t ∈ vex.runnableThreads else t ∉ vex.runnableThreads) :
    ∃ after, Lands t (vex.onIoEnd t protocol suspends thread) after := by
  have placed := settled.placed t thread found
  unfold onIoEnd
  dsimp only
  refine exit_lands ?_
  cases protocol with
  | lax => exact suspend_lands found settled.distinct fits (free_of_unqueued settled found fits) suspends
  | normal =>
    dsimp only at fits ⊢
    split_ifs with learning timed predicted
    · have place := fits learning
      rw [if_pos timed] at place
      have rolledBack := onState_self (fun state => state.setTimeout (-1)) found
      exact suspendListed_lands rolledBack settled.distinct (learning_placed placed learning) suspends place
    · have place := fits learning
      rw [if_neg timed] at place
      exact suspend_lands found settled.distinct place (free_of_unqueued settled found place) suspends
    · -- a predicted operation's thread is queued all the time
      have queued : t ∈ vex.runnableThreads := placed.waits (by simp [mustBeQueued,predicted])
      exact suspendListed_lands found settled.distinct placed suspends fun _ => queued
    · exact ⟨thread,found,settled.distinct,placed⟩

private theorem start_lands {state last : State Locks} {call : NativeCall} {start : Thread → Vex Locks} (settled : Settled state.vex)
    (lands : ∀ thread, state.vex.threadRegistry t = some thread → t ∉ state.vex.runnableThreads → thread.blocked = false →
      (∀ x, x ≠ t → Keeps x state.vex (start thread)) ∧ ∃ after, Lands t (start thread) after)
    (started : startNative state t call start = some last) : Settled last.vex := by
  simp only [startNative,Option.ite_none_right_eq_some] at started
  obtain ⟨thread,acting,rfl⟩ := Option.map_eq_some_iff.mp started.2
  obtain ⟨found,outside⟩ := actor_eq acting
  have unblocked : thread.blocked = false := by
    simp only [Thread.isOutside,Thread.isFree,Bool.and_eq_true,Bool.not_eq_true'] at outside
    exact outside.1.1
  obtain ⟨keeps,landed⟩ := lands thread found (unqueued_of_running settled found (running_of_outside outside)) unblocked
  exact settled_of_lands settled keeps landed

private theorem end_lands {state last : State Locks} {call : NativeCall} {finish : Thread → Vex Locks} (settled : Settled state.vex)
    (lands : ∀ thread, state.vex.threadRegistry t = some thread →
      (∀ x, x ≠ t → Keeps x state.vex (finish thread)) ∧ ∃ after, Lands t (finish thread) after)
    (finished : endNative state t call finish = some last) : Settled last.vex := by
  simp only [endNative,Option.ite_none_right_eq_some] at finished
  obtain ⟨thread,acting,rfl⟩ := Option.map_eq_some_iff.mp finished.2
  obtain ⟨keeps,landed⟩ := lands thread (actor_eq acting).1
  exact settled_of_lands settled keeps landed

private theorem step_settled {protocol : IoProtocol} {state last : State Locks} {move : Step} (settled : Settled state.vex)
    (fits : Fits locking protocol state move) (stepped : step locking protocol state move = some last) : Settled last.vex := by
  cases move with
  | event event =>
    simp only [step,Option.ite_none_right_eq_some] at stepped
    obtain ⟨vex,moved,rfl⟩ := Option.map_eq_some_iff.mp stepped.2
    exact event_settled settled fits moved
  | interactionPoint t suspends =>
    simp only [step,Option.ite_none_right_eq_some] at stepped
    obtain ⟨thread,acting,rfl⟩ := Option.map_eq_some_iff.mp stepped.2
    obtain ⟨found,outside⟩ := actor_eq acting
    have runs := running_of_outside outside
    exact settled_of_lands settled (fun x other => suspendOnVexEntry_keeps other)
      (suspendOnVexEntry_lands found settled.distinct (unqueued_of_running settled found runs) (free_of_running runs) suspends)
  | wrappedWaitingStart t =>
    refine start_lands settled (fun thread found unqueued _ => ⟨fun x other => ?_,?_⟩) stepped
    · exact (onState_keeps _ other).trans unset_keeps
    · have called := onState_self (fun state =>
        (((state.setTimedOut true).setTimeout (-1)).setAwakeningFromJoin false).setWaiting) found
      exact ⟨_,unset_lands called settled.distinct unqueued rfl⟩
  | wrappedWaitingEnd t suspends =>
    refine end_lands settled (fun thread found => ⟨fun x other => ?_,?_⟩) stepped
    · exact (onState_keeps _ other).trans (suspendOnVexEntry_keeps other)
    · have ended := onState_self (fun state => ((state.setTimeout (-1)).setAwakeningFromJoin false).setTimedOut true) found
      exact suspendOnVexEntry_lands ended settled.distinct fits
        (free_of_untimed (free_of_unqueued settled found fits)) suspends
  | wrappedTimedWaitingStart t objectId timeout nanoTimeout =>
    refine start_lands settled (fun thread found unqueued _ => ⟨fun x other => ?_,?_⟩) stepped
    · exact ((setRegistry_keeps _).trans (onState_keeps _ other)).trans (setTimedWaitingThread_keeps other)
    · have inserted : (state.vex.setRegistry (state.vex.waitingOnObjectRegistry.insert objectId.toInt32 t)).threadRegistry t =
          some thread := found
      have called := onState_self (fun state => { state.setWaitingObjectId objectId with waitingInRealTime := true }.setTimedWaiting
        (ensureTimeoutIsLessThanMax timeout nanoTimeout)) inserted
      exact ⟨_,lands_pushed settled.distinct unqueued setTimedWaiting_queue (setTimedWaiting_self called) rfl fun _ => rfl⟩
  | wrappedTimedWaitingEnd t =>
    refine end_lands settled (fun thread found => ⟨fun x other => ?_,?_⟩) stepped
    · exact (((onState_keeps _ other).trans eraseWaitingObjectId_keeps).trans (onState_keeps _ other)).trans
        (onBlockedWaitingInVex_keeps other)
    · have entered := onState_self (fun state => { state.onVexEntry with waitingInRealTime := false }) found
      rw [← @erase_threadRegistry _ t] at entered
      have ended := onState_self (fun state => (state.setTimedOut true).setSuspended) entered
      refine block_lands ended ?_ ?_ rfl
      · rw [erased_queue]
        exact settled.distinct
      · rw [erased_queue]
        exact fits
  | ioStart t predicted =>
    exact start_lands settled (fun thread found unqueued unblocked =>
      ⟨fun x other => setIoThread_keeps other,setIo_lands _ found settled.distinct unqueued unblocked⟩) stepped
  | ioEnd t suspends =>
    exact end_lands settled (fun thread found =>
      ⟨fun x other => onIoEnd_keeps other,ioEnd_lands settled found (fits thread found)⟩) stepped
  | continueIo t leapIsValid =>
    simp only [step,Option.ite_none_right_eq_some] at stepped
    obtain ⟨queued,stepped⟩ := stepped
    obtain ⟨thread,found,continued⟩ := Option.bind_eq_some_iff.mp stepped
    obtain ⟨vex,moved,rfl⟩ := Option.map_eq_some_iff.mp continued
    exact settled_of_lands settled (fun x other => continueIo_keeps other moved) (continueIo_lands settled found queued moved)

private theorem membership_of_settled (settled : Settled vex) : Membership vex where
  once := settled.distinct
  queued t thread found waits :=
    List.count_eq_one_of_mem settled.distinct ((settled.placed t thread found).waits waits)
  running t thread found running :=
    (settled.placed t thread found).runs (by simp [VexThreadState.isRunning,running])

end Invariant

/-! ## Runs -/

/-- In every run whose steps fit, of any threads, in any order, threads that must be queued are queued
    exactly once and running ones are not; every step suspends waiting threads into the queue. -/
theorem membership_kept (locking : LockOperations Locks) (protocol : IoProtocol) (locks : Locks) (steps : List Step)
    (last : State Locks) (executed : Runs.run (step locking protocol) (initial locks) steps = some last)
    (fits : Runs.Meets (step locking protocol) (Fits locking protocol) (initial locks) steps) :
    Membership last.vex ∧ ∀ move next, Fits locking protocol last move → step locking protocol last move = some next →
      Membership next.vex ∧ SuspendsIntoQueue last.vex next.vex := by
  have start : Settled (initial locks).vex :=
    ⟨List.nodup_nil,(fun t queued => absurd queued List.not_mem_nil),(fun t thread found => by cases found)⟩
  have settled : Settled last.vex := @Runs.invariant_of_meets _ _ (step locking protocol) (Fits locking protocol)
    (fun state => Settled state.vex) (fun _ _ _ inv holds stepped => step_settled inv holds stepped) _ _ _ start fits executed
  refine ⟨membership_of_settled settled,fun move next holds stepped => ?_⟩
  have after := membership_of_settled (step_settled settled holds stepped)
  refine ⟨after,fun t thread woken found waiting foundAfter suspended => ?_⟩
  cases asleep : woken.state.awaken with
  | true => exact .inl rfl
  | false => exact .inr (after.queued t woken foundAfter (by simp [mustBeQueued,suspended,asleep]))

/-- Thread 1 waits on an object and is signalled, does predicted I/O and is suspended at its end; thread 2
    sleeps, is resumed late and parks. -/
private def busySteps : List Step :=
  [.event (.spawn 1 0 0 false),.event (.register 1 5 true),.event (.wait 1),.event (.spawn 2 0 0 false),
    .event (.signal 0 5),.event (.sleep 2 3 0),.event (.continueThread 0 1 false),.event (.returnFromBlock 1),
    .event (.continueThread 0 2 true),.event (.returnFromBlock 2),.ioStart 1 true,.event (.continueThread 0 2 false),
    .event (.returnFromBlock 2),.ioEnd 1 true,.event (.park 2 0),.event (.unpark 2),.event (.parked 2 false)]

theorem busy_steps_kept : ∃ last, Runs.run (step LockRegistry.operations .normal) (initial fun _ => none) busySteps = some last ∧
    Membership last.vex := by
  obtain ⟨last,executed⟩ := Option.isSome_iff_exists.mp
    (show (Runs.run (step LockRegistry.operations .normal) (initial fun _ => none) busySteps).isSome = true by decide +kernel)
  exact ⟨last,executed,(membership_kept LockRegistry.operations .normal (fun _ => none) busySteps last executed
    (by decide +kernel)).1⟩

/-- A sleep for no time is queued, and pushed again when it is interrupted; a park that returns with a
    permit takes the timeout of an earlier park for its own and leaves its thread suspended for ever. -/
theorem membership_lost : (¬ ∀ (protocol : IoProtocol) (steps : List Step) last,
    Runs.run (step LockRegistry.operations protocol) (initial fun _ => none) steps = some last → Membership last.vex) ∧
    ∃ last, Runs.run (step LockRegistry.operations .normal) (initial fun _ => none)
      [.event (.spawn 1 0 0 false),.event (.park 1 5),.event (.parked 1 false),.event (.continueThread 0 1 false),
        .event (.returnFromBlock 1),.event (.unpark 1),.event (.unpark 1),.event (.park 1 0),.event (.parked 1 false)] =
      some last ∧ last.vex.runnableThreads = [] ∧ (last.vex.threadRegistry 1).any (fun thread => mustBeQueued thread.state) = true := by
  constructor
  · intro claimed
    have twice : ((Runs.run (step LockRegistry.operations .normal) (initial fun _ => none)
        [.event (.spawn 1 0 0 false),.event (.sleep 1 0 0),.event (.interrupt 1)]).any
          fun last => last.vex.runnableThreads == [1,1]) = true := by decide +kernel
    obtain ⟨last,executed,queue⟩ := Runs.exists_of_checked twice
    have once := (claimed _ _ last executed).once
    simp [eq_of_beq queue] at once
  · obtain ⟨last,executed,lost⟩ := Runs.exists_of_checked
      (show ((Runs.run (step LockRegistry.operations .normal) (initial fun _ => none)
        [.event (.spawn 1 0 0 false),.event (.park 1 5),.event (.parked 1 false),.event (.continueThread 0 1 false),
          .event (.returnFromBlock 1),.event (.unpark 1),.event (.unpark 1),.event (.park 1 0),.event (.parked 1 false)]).any fun last =>
        last.vex.runnableThreads.isEmpty && (last.vex.threadRegistry 1).any fun thread => mustBeQueued thread.state) = true by
          decide +kernel)
    rw [Bool.and_eq_true,List.isEmpty_iff] at lost
    exact ⟨last,executed,lost⟩

end Vexjine.QueueMembership
