import Vexjine.VexThreadState
import Vexjine.ObjectRegistry

/-!
# The thread manager

What the managers share with the threads (the index of the registered threads,
the queue of runnable ones, the two registries) and the methods of
`ThreadManager` that block, interrupt, suspend and resume threads. A thread that
blocks leaves the method it is in; what it does when it runs again is told by
its position. Clocks are left out, so the queue has no order: any of its entries
may be at its top.
-/

namespace Vexjine
set_option linter.unusedSimpArgs false

/-- Where a thread is between its calls, or in the call in which it is blocked. -/
inductive Position
  | outside
  /-- Between `beforeReleasingLockOfAnyReplacedWaiting` and the wait it announces. -/
  | registered (objectId : Int64) (updateLockRegistry : Bool)
  | replacedWaiting (objectId : Int64) (updateLockRegistry : Bool)
  | replacedTimedWaiting (objectId : Int64) (updateLockRegistry : Bool)
  | sleeping
  | requestingLock (lockId : Int64)
  /-- Between `onPark` and `onParked`. -/
  | parking
  deriving DecidableEq

/-- A registered thread; it is blocked while it waits in `blockHereUntilSignaled`. -/
structure Thread where
  state : VexThreadState
  threadCurrentlyControllingManager : Nat
  blocked : Bool
  position : Position
  deriving DecidableEq

/-- The lock registry in use: the base class or the reentrant one. -/
structure LockOperations (Locks : Type) where
  tryAcquiringLock : Locks → Int64 → Int64 → Bool × Locks
  releaseAndGetNext : Locks → Int64 → Option Int64 × Locks

/-- The shared state. Every manager has its running thread and its count of notifications. -/
structure Vex (Locks : Type) where
  threadRegistry : Int64 → Option Thread
  runningThread : Nat → Option Int64
  runnableThreads : List Int64
  pendingNotifications : Nat → UInt32
  waitingOnObjectRegistry : ObjectRegistry Int32
  lockRegistry : Locks

namespace Vex
variable {Locks : Type}

/-- Before the first thread is registered. -/
def start (lockRegistry : Locks) : Vex Locks where
  threadRegistry := fun _ => none
  runningThread := fun _ => none
  runnableThreads := []
  pendingNotifications := fun _ => 0
  waitingOnObjectRegistry := fun _ => none
  lockRegistry := lockRegistry

variable (t : Int64) (vex : Vex Locks)

/-! ## Access to the parts -/

def onThread (f : Thread → Thread) : Vex Locks :=
  { vex with threadRegistry := Function.update vex.threadRegistry t ((vex.threadRegistry t).map f) }

def onState (f : VexThreadState → VexThreadState) : Vex Locks :=
  vex.onThread t fun thread => { thread with state := f thread.state }

def setPosition (position : Position) : Vex Locks := vex.onThread t fun thread => { thread with position }

def setBlocked (blocked : Bool) : Vex Locks := vex.onThread t fun thread => { thread with blocked }

/-- Adds a thread to the index, or removes it. -/
def setThread (thread : Option Thread) : Vex Locks :=
  { vex with threadRegistry := Function.update vex.threadRegistry t thread }

def setRegistry (registry : ObjectRegistry Int32) : Vex Locks := { vex with waitingOnObjectRegistry := registry }

def setLocks (locks : Locks) : Vex Locks := { vex with lockRegistry := locks }

def pushRunnable : Vex Locks := { vex with runnableThreads := vex.runnableThreads ++ [t] }

def popRunnable : Vex Locks := { vex with runnableThreads := vex.runnableThreads.erase t }

def increasePendingNotifications (manager : Nat) : Vex Locks :=
  { vex with pendingNotifications :=
      Function.update vex.pendingNotifications manager (vex.pendingNotifications manager + 1) }

def setRunning (manager : Nat) (running : Option Int64) : Vex Locks :=
  { vex with runningThread := Function.update vex.runningThread manager running }

def managerOf : Nat := ((vex.threadRegistry t).map Thread.threadCurrentlyControllingManager).getD 0

def isBlocked : Bool := (vex.threadRegistry t).any Thread.blocked

/-! ## Blocking and running -/

def unsetCurrentThreadFromRunningThread : Vex Locks :=
  if vex.runningThread (vex.managerOf t) = some t then vex.setRunning (vex.managerOf t) none else vex

def setSuspendedAndPushToRunnables : Vex Locks :=
  ((vex.unsetCurrentThreadFromRunningThread t).onState t fun state =>
    (state.setSuspended.setTimedOut true).setTimeout (-1)).pushRunnable t

/-- `onBlockedWaitingInVex` up to the wait. -/
def onBlockedWaitingInVex : Vex Locks := (vex.onState t VexThreadState.blockHereUntilSignaled).setBlocked t true

/-- A thread that finds another one running is suspended again, and stays blocked. -/
def setRunningThread : Vex Locks :=
  let vex := vex.onState t fun state => state.setAwaken false
  if vex.runningThread (vex.managerOf t) = none ∨ vex.runningThread (vex.managerOf t) = some t then
    ((vex.onState t VexThreadState.setRunning).setRunning (vex.managerOf t) (some t)).setBlocked t false
  else if t ∈ vex.runnableThreads then
    ((vex.unsetCurrentThreadFromRunningThread t).onState t VexThreadState.setSuspended).onBlockedWaitingInVex t
  else (vex.setSuspendedAndPushToRunnables t).onBlockedWaitingInVex t

/-- Whether the thread suspends itself is a question of clocks. -/
def suspendCurrentThread (suspends : Bool) : Vex Locks :=
  if suspends then (vex.setSuspendedAndPushToRunnables t).onBlockedWaitingInVex t
  else if vex.runningThread (vex.managerOf t) = some t then vex
  else vex.setRunningThread t

def suspendLooseCurrentThread : Vex Locks :=
  if vex.runnableThreads = [] then vex.setRunningThread t
  else (vex.setSuspendedAndPushToRunnables t).onBlockedWaitingInVex t

/-- The suspension of the running thread by its manager. -/
def suspendThread : Vex Locks :=
  (((vex.unsetCurrentThreadFromRunningThread t).onState t VexThreadState.setSuspended).pushRunnable
    t).onBlockedWaitingInVex t

def onReplacedWaiting : Vex Locks := (vex.unsetCurrentThreadFromRunningThread t).onBlockedWaitingInVex t

def setTimedWaitingThread : Vex Locks :=
  ((vex.unsetCurrentThreadFromRunningThread t).onState t VexThreadState.setWaiting).pushRunnable t

def onReplacedTimedWaiting : Vex Locks := (vex.setTimedWaitingThread t).onBlockedWaitingInVex t

/-! ## Interrupts -/

def eraseWaitingObjectIdFromRegistry : Vex Locks :=
  match vex.threadRegistry t with
  | some thread =>
    if thread.state.timedWaitingObjectId = 0 then vex
    else vex.setRegistry (vex.waitingOnObjectRegistry.erase thread.state.timedWaitingObjectId.toInt32 t)
  | none => vex

def beforeThreadInterruptAt : Vex Locks :=
  (vex.eraseWaitingObjectIdFromRegistry t).onState t VexThreadState.beforeThreadInterrupt

/-- The timeout is read before the interrupt; an update of the queue leaves its entries. -/
def onAnyReplacedWaitingInterrupt : Vex Locks :=
  match vex.threadRegistry t with
  | some thread =>
    if thread.state.timeout ≠ 0 ∧ thread.state.timeout ≠ -2 then vex.beforeThreadInterruptAt t
    else (vex.beforeThreadInterruptAt t).pushRunnable t
  | none => vex

/-- The object registry is not passed here. -/
def onWrappedWaitingInterrupt : Vex Locks :=
  vex.onState t fun state => (state.beforeThreadInterrupt.setWaiting).setTimedOut false

/-! ## The scheduler -/

/-- The manager waits until the thread is blocked before it resumes it. -/
def resumeThread (manager : Nat) : Option (Vex Locks) :=
  match vex.threadRegistry t with
  | some thread =>
    if thread.blocked then
      some (vex.onThread t fun thread =>
        { thread with state := thread.state.onThreadResumeByManager,threadCurrentlyControllingManager := manager })
    else none
  | none => none

/-- `isValidToLeapInVirtualTimeTo` refuses threads that wait in real time; beyond that its answer
    is given. -/
def interruptTimedWaitingThread (manager : Nat) (leapIsValid : Bool) (thread : Thread) : Option (Vex Locks) :=
  if leapIsValid && !thread.state.waitingInRealTime then
    ((vex.onAnyReplacedWaitingInterrupt t).onState t fun state => state.setTimedOut true).resumeThread t manager
  else some (vex.pushRunnable t)

/-- On a suspended or waiting thread, once popped; others are not popped or not modelled. A waiting
    thread without timeout is left out of the queue. -/
def continueThread (manager : Nat) (leapIsValid : Bool) : Option (Vex Locks) :=
  match vex.threadRegistry t with
  | some thread =>
    if t ∈ vex.runnableThreads then
      let vex := vex.popRunnable t
      if thread.state.isSuspended then
        if thread.state.timedOut || (decide (thread.state.timeout ≠ 0) && thread.state.isNotAfterInterruptedTimedParking) then
          vex.resumeThread t manager
        else some (vex.pushRunnable t)
      else if thread.state.isTimedWaiting then vex.interruptTimedWaitingThread t manager leapIsValid thread
      else if thread.state.isWaiting then some vex
      else none
    else none
  | none => none

/-! ## The object registry

Only an interrupt changes it: the thread's record for the object it remembers is erased. -/

section Records
variable {t vex} {manager : Nat}

@[simp] theorem onThread_records (f : Thread → Thread) :
    (vex.onThread t f).waitingOnObjectRegistry = vex.waitingOnObjectRegistry := rfl

@[simp] theorem onState_records (f : VexThreadState → VexThreadState) :
    (vex.onState t f).waitingOnObjectRegistry = vex.waitingOnObjectRegistry := rfl

@[simp] theorem setPosition_records (position : Position) :
    (vex.setPosition t position).waitingOnObjectRegistry = vex.waitingOnObjectRegistry := rfl

@[simp] theorem setBlocked_records (blocked : Bool) :
    (vex.setBlocked t blocked).waitingOnObjectRegistry = vex.waitingOnObjectRegistry := rfl

@[simp] theorem setThread_records (thread : Option Thread) :
    (vex.setThread t thread).waitingOnObjectRegistry = vex.waitingOnObjectRegistry := rfl

@[simp] theorem setRegistry_records (registry : ObjectRegistry Int32) :
    (vex.setRegistry registry).waitingOnObjectRegistry = registry := rfl

@[simp] theorem setLocks_records (locks : Locks) :
    (vex.setLocks locks).waitingOnObjectRegistry = vex.waitingOnObjectRegistry := rfl

@[simp] theorem pushRunnable_records : (vex.pushRunnable t).waitingOnObjectRegistry = vex.waitingOnObjectRegistry := rfl

@[simp] theorem popRunnable_records : (vex.popRunnable t).waitingOnObjectRegistry = vex.waitingOnObjectRegistry := rfl

@[simp] theorem setRunning_records (running : Option Int64) :
    (vex.setRunning manager running).waitingOnObjectRegistry = vex.waitingOnObjectRegistry := rfl

@[simp] theorem increasePendingNotifications_records :
    (vex.increasePendingNotifications manager).waitingOnObjectRegistry = vex.waitingOnObjectRegistry := rfl

@[simp] theorem unset_records :
    (vex.unsetCurrentThreadFromRunningThread t).waitingOnObjectRegistry = vex.waitingOnObjectRegistry := by
  unfold unsetCurrentThreadFromRunningThread
  split <;> rfl

@[simp] theorem setSuspendedAndPush_records :
    (vex.setSuspendedAndPushToRunnables t).waitingOnObjectRegistry = vex.waitingOnObjectRegistry := by
  simp [setSuspendedAndPushToRunnables]

@[simp] theorem onBlockedWaitingInVex_records :
    (vex.onBlockedWaitingInVex t).waitingOnObjectRegistry = vex.waitingOnObjectRegistry := rfl

@[simp] theorem setRunningThread_records :
    (vex.setRunningThread t).waitingOnObjectRegistry = vex.waitingOnObjectRegistry := by
  unfold setRunningThread
  dsimp only
  split_ifs <;> simp

@[simp] theorem suspendCurrentThread_records (suspends : Bool) :
    (vex.suspendCurrentThread t suspends).waitingOnObjectRegistry = vex.waitingOnObjectRegistry := by
  unfold suspendCurrentThread
  split_ifs <;> simp

@[simp] theorem suspendLooseCurrentThread_records :
    (vex.suspendLooseCurrentThread t).waitingOnObjectRegistry = vex.waitingOnObjectRegistry := by
  unfold suspendLooseCurrentThread
  split_ifs <;> simp

@[simp] theorem suspendThread_records :
    (vex.suspendThread t).waitingOnObjectRegistry = vex.waitingOnObjectRegistry := by simp [suspendThread]

@[simp] theorem onReplacedWaiting_records :
    (vex.onReplacedWaiting t).waitingOnObjectRegistry = vex.waitingOnObjectRegistry := by simp [onReplacedWaiting]

@[simp] theorem setTimedWaitingThread_records :
    (vex.setTimedWaitingThread t).waitingOnObjectRegistry = vex.waitingOnObjectRegistry := by
  simp [setTimedWaitingThread]

@[simp] theorem onReplacedTimedWaiting_records :
    (vex.onReplacedTimedWaiting t).waitingOnObjectRegistry = vex.waitingOnObjectRegistry := by
  simp [onReplacedTimedWaiting]

theorem resumeThread_records {next : Vex Locks} (resumed : vex.resumeThread t manager = some next) :
    next.waitingOnObjectRegistry = vex.waitingOnObjectRegistry := by
  unfold resumeThread at resumed
  split at resumed
  · split at resumed
    · cases resumed
      rfl
    · cases resumed
  · cases resumed

theorem interrupt_records {thread : Thread} (found : vex.threadRegistry t = some thread) :
    (vex.onAnyReplacedWaitingInterrupt t).waitingOnObjectRegistry =
      if thread.state.timedWaitingObjectId = 0 then vex.waitingOnObjectRegistry
      else vex.waitingOnObjectRegistry.erase thread.state.timedWaitingObjectId.toInt32 t := by
  unfold onAnyReplacedWaitingInterrupt beforeThreadInterruptAt eraseWaitingObjectIdFromRegistry
  simp only [found]
  split_ifs <;> rfl

theorem interrupt_absent (absent : vex.threadRegistry t = none) : vex.onAnyReplacedWaitingInterrupt t = vex := by
  simp [onAnyReplacedWaitingInterrupt,absent]

end Records

/-! ## What an interrupt does to its thread -/

section Effects
variable {t vex} {thread : Thread}

theorem onThread_self (f : Thread → Thread) (found : vex.threadRegistry t = some thread) :
    (vex.onThread t f).threadRegistry t = some (f thread) := by simp [onThread,found]

theorem onState_self (f : VexThreadState → VexThreadState) (found : vex.threadRegistry t = some thread) :
    (vex.onState t f).threadRegistry t = some { thread with state := f thread.state } := onThread_self _ found

theorem setPosition_self (position : Position) (found : vex.threadRegistry t = some thread) :
    (vex.setPosition t position).threadRegistry t = some { thread with position } := onThread_self _ found

theorem onWrappedWaitingInterrupt_self (found : vex.threadRegistry t = some thread) :
    (vex.onWrappedWaitingInterrupt t).threadRegistry t =
      some { thread with state := thread.state.beforeThreadInterrupt.setWaiting.setTimedOut false } := onState_self _ found

@[simp] theorem erase_threadRegistry :
    (vex.eraseWaitingObjectIdFromRegistry t).threadRegistry = vex.threadRegistry := by
  unfold eraseWaitingObjectIdFromRegistry
  split
  · split <;> rfl
  · rfl

@[simp] theorem erase_runnableThreads :
    (vex.eraseWaitingObjectIdFromRegistry t).runnableThreads = vex.runnableThreads := by
  unfold eraseWaitingObjectIdFromRegistry
  split
  · split <;> rfl
  · rfl

theorem interrupt_thread (found : vex.threadRegistry t = some thread) :
    (vex.onAnyReplacedWaitingInterrupt t).threadRegistry t =
      some { thread with state := thread.state.beforeThreadInterrupt } := by
  unfold onAnyReplacedWaitingInterrupt
  have erased : (vex.eraseWaitingObjectIdFromRegistry t).threadRegistry t = some thread := by rw [erase_threadRegistry,found]
  simp only [found]
  split_ifs <;> exact onState_self _ erased

/-- Only a thread whose timeout is zero or that of a simulated wait is pushed. -/
theorem interrupt_queue (found : vex.threadRegistry t = some thread) :
    (vex.onAnyReplacedWaitingInterrupt t).runnableThreads =
      if thread.state.timeout ≠ 0 ∧ thread.state.timeout ≠ -2 then vex.runnableThreads
      else vex.runnableThreads ++ [t] := by
  unfold onAnyReplacedWaitingInterrupt
  simp only [found]
  split_ifs <;> simp [beforeThreadInterruptAt,onState,onThread,pushRunnable]

@[simp] theorem unset_threadRegistry :
    (vex.unsetCurrentThreadFromRunningThread t).threadRegistry = vex.threadRegistry := by
  unfold unsetCurrentThreadFromRunningThread
  split <;> rfl

@[simp] theorem unset_runnableThreads :
    (vex.unsetCurrentThreadFromRunningThread t).runnableThreads = vex.runnableThreads := by
  unfold unsetCurrentThreadFromRunningThread
  split <;> rfl

/-- A thread that is suspended by itself loses its timeout. -/
def pushed (thread : Thread) : Thread := { thread with
  state := (thread.state.setSuspended.setTimedOut true).setTimeout (-1)
  blocked := true }

theorem suspend_self (found : vex.threadRegistry t = some thread) :
    ((vex.setSuspendedAndPushToRunnables t).onBlockedWaitingInVex t).threadRegistry t = some (pushed thread) := by
  simp [setSuspendedAndPushToRunnables,onBlockedWaitingInVex,onState,setBlocked,onThread,pushRunnable,found,pushed,
    VexThreadState.setTimedOut,VexThreadState.setTimeout,VexThreadState.blockHereUntilSignaled,
    VexThreadState.setAwaken,VexThreadState.setSuspended]

theorem suspend_queue : ((vex.setSuspendedAndPushToRunnables t).onBlockedWaitingInVex t).runnableThreads =
    vex.runnableThreads ++ [t] := by
  simp [setSuspendedAndPushToRunnables,onBlockedWaitingInVex,onState,setBlocked,onThread,pushRunnable]

theorem managerOf_onThread (f : Thread → Thread)
    (same : ∀ thread, (f thread).threadCurrentlyControllingManager = thread.threadCurrentlyControllingManager) :
    (vex.onThread t f).managerOf t = vex.managerOf t := by
  unfold managerOf onThread
  cases found : vex.threadRegistry t with
  | none => simp [found]
  | some thread => simp [found,same]

/-- A thread of an idle manager becomes the running one. -/
theorem setRunningThread_idle (idle : vex.runningThread (vex.managerOf t) = none) :
    vex.setRunningThread t =
      (((vex.onState t fun state => state.setAwaken false).onState t VexThreadState.setRunning).setRunning
        (vex.managerOf t) (some t)).setBlocked t false := by
  have same : (vex.onState t fun state => state.setAwaken false).managerOf t = vex.managerOf t :=
    managerOf_onThread _ fun _ => rfl
  unfold setRunningThread
  dsimp only
  rw [same,if_pos (.inl idle)]

/-- The thread runs, or is suspended again: in its place in the queue, or pushed. -/
theorem setRunningThread_cases (found : vex.threadRegistry t = some thread) :
    ((vex.setRunningThread t).threadRegistry t =
        some { thread with state := (thread.state.setAwaken false).setRunning,blocked := false } ∧
      (vex.setRunningThread t).runnableThreads = vex.runnableThreads) ∨
    (t ∈ vex.runnableThreads ∧
      (vex.setRunningThread t).threadRegistry t = some { thread with state := thread.state.setSuspended,blocked := true } ∧
      (vex.setRunningThread t).runnableThreads = vex.runnableThreads) ∨
    ((vex.setRunningThread t).threadRegistry t = some (pushed thread) ∧
      (vex.setRunningThread t).runnableThreads = vex.runnableThreads ++ [t]) := by
  have awake : (vex.onState t fun state => state.setAwaken false).threadRegistry t =
      some { thread with state := thread.state.setAwaken false } := onState_self _ found
  unfold setRunningThread
  dsimp only
  split_ifs with free queued
  · refine .inl ⟨?_,rfl⟩
    simp [setBlocked,setRunning,onState,onThread,found]
  · refine .inr (.inl ⟨queued,?_,?_⟩)
    · simp [onBlockedWaitingInVex,onState,setBlocked,onThread,found,VexThreadState.blockHereUntilSignaled,
        VexThreadState.setSuspended,VexThreadState.setAwaken,VexThreadState.setNewState]
    · simp [onBlockedWaitingInVex,onState,setBlocked,onThread]
  · refine .inr (.inr ⟨?_,suspend_queue⟩)
    rw [suspend_self awake]
    rfl

theorem suspendCurrentThread_cases (suspends : Bool) (found : vex.threadRegistry t = some thread) :
    ((vex.suspendCurrentThread t suspends).threadRegistry t = some (pushed thread) ∧
      (vex.suspendCurrentThread t suspends).runnableThreads = vex.runnableThreads ++ [t]) ∨
    vex.suspendCurrentThread t suspends = vex ∨ vex.suspendCurrentThread t suspends = vex.setRunningThread t := by
  unfold suspendCurrentThread
  split_ifs
  · exact .inl ⟨suspend_self found,suspend_queue⟩
  · exact .inr (.inl rfl)
  · exact .inr (.inr rfl)

theorem onReplacedWaiting_self (found : vex.threadRegistry t = some thread) :
    (vex.onReplacedWaiting t).threadRegistry t =
      some { thread with state := thread.state.blockHereUntilSignaled,blocked := true } := by
  simp [onReplacedWaiting,onBlockedWaitingInVex,onState,setBlocked,onThread,found]

theorem onReplacedTimedWaiting_self (found : vex.threadRegistry t = some thread) :
    (vex.onReplacedTimedWaiting t).threadRegistry t =
      some { thread with state := thread.state.setWaiting.blockHereUntilSignaled,blocked := true } := by
  simp [onReplacedTimedWaiting,setTimedWaitingThread,onBlockedWaitingInVex,onState,setBlocked,onThread,pushRunnable,found]

theorem suspendThread_self (found : vex.threadRegistry t = some thread) :
    (vex.suspendThread t).threadRegistry t = some { thread with state := thread.state.setSuspended,blocked := true } := by
  simp [suspendThread,onBlockedWaitingInVex,onState,setBlocked,onThread,pushRunnable,found,
    VexThreadState.blockHereUntilSignaled,VexThreadState.setSuspended,VexThreadState.setAwaken,VexThreadState.setNewState]

theorem resumeThread_self {manager : Nat} {next : Vex Locks} (found : vex.threadRegistry t = some thread)
    (resumed : vex.resumeThread t manager = some next) : thread.blocked = true ∧
      next.runnableThreads = vex.runnableThreads ∧ next.threadRegistry t = some { thread with
        state := thread.state.onThreadResumeByManager
        threadCurrentlyControllingManager := manager } := by
  by_cases blocked : thread.blocked = true
  · simp only [resumeThread,found,blocked,if_true,Option.some.injEq] at resumed
    subst resumed
    exact ⟨blocked,rfl,by rw [onThread_self _ found,blocked]⟩
  · simp [resumeThread,found,blocked] at resumed

/-- A popped thread is pushed back, left out, resumed, or interrupted at its timeout and resumed. -/
theorem continueThread_cases {manager : Nat} {leapIsValid : Bool} {next : Vex Locks}
    (found : vex.threadRegistry t = some thread) (continued : vex.continueThread t manager leapIsValid = some next) :
    (next.threadRegistry t = some thread ∧ t ∈ next.runnableThreads) ∨
    (thread.state.isWaiting = true ∧ thread.state.isTimedWaiting = false ∧ next = vex.popRunnable t) ∨
    (thread.state.isSuspended = true ∧ thread.blocked = true ∧ next.threadRegistry t = some { thread with
      state := thread.state.onThreadResumeByManager
      threadCurrentlyControllingManager := manager }) ∨
    (thread.state.isTimedWaiting = true ∧ thread.state.waitingInRealTime = false ∧ thread.blocked = true ∧
      next.threadRegistry t = some { thread with
        state := (thread.state.beforeThreadInterrupt.setTimedOut true).onThreadResumeByManager
        threadCurrentlyControllingManager := manager }) := by
  have popped : (vex.popRunnable t).threadRegistry t = some thread := found
  have back : t ∈ ((vex.popRunnable t).pushRunnable t).runnableThreads := by simp [pushRunnable]
  unfold continueThread at continued
  simp only [found] at continued
  split_ifs at continued with queued suspended resumable timed waiting
  · obtain ⟨blocked,-,resumed⟩ := resumeThread_self popped continued
    exact .inr (.inr (.inl ⟨suspended,blocked,resumed⟩))
  · cases continued
    exact .inl ⟨found,back⟩
  · unfold interruptTimedWaitingThread at continued
    split_ifs at continued with leaps
    · have interrupted : (((vex.popRunnable t).onAnyReplacedWaitingInterrupt t).onState t
          fun state => state.setTimedOut true).threadRegistry t =
            some { thread with state := thread.state.beforeThreadInterrupt.setTimedOut true } :=
        onState_self _ (interrupt_thread popped)
      obtain ⟨blocked,-,resumed⟩ := resumeThread_self interrupted continued
      have inVirtualTime : thread.state.waitingInRealTime = false := by
        rw [Bool.and_eq_true,Bool.not_eq_true'] at leaps
        exact leaps.2
      exact .inr (.inr (.inr ⟨timed,inVirtualTime,blocked,resumed⟩))
    · cases continued
      exact .inl ⟨found,back⟩
  · cases continued
    exact .inr (.inl ⟨waiting,by simpa using timed,rfl⟩)

theorem setRunningThread_position (found : vex.threadRegistry t = some thread) :
    ∃ after, (vex.setRunningThread t).threadRegistry t = some after ∧ after.position = thread.position := by
  obtain ⟨running,-⟩ | ⟨-,again,-⟩ | ⟨back,-⟩ := setRunningThread_cases found
  · exact ⟨_,running,rfl⟩
  · exact ⟨_,again,rfl⟩
  · exact ⟨_,back,rfl⟩

theorem suspendCurrentThread_position (suspends : Bool) (found : vex.threadRegistry t = some thread) :
    ∃ after, (vex.suspendCurrentThread t suspends).threadRegistry t = some after ∧ after.position = thread.position := by
  obtain ⟨back,-⟩ | same | running := suspendCurrentThread_cases suspends found
  · exact ⟨_,back,rfl⟩
  · exact ⟨thread,by rw [same,found],rfl⟩
  · rw [running]
    exact setRunningThread_position found

theorem suspendLooseCurrentThread_position (found : vex.threadRegistry t = some thread) :
    ∃ after, (vex.suspendLooseCurrentThread t).threadRegistry t = some after ∧ after.position = thread.position := by
  unfold suspendLooseCurrentThread
  split_ifs
  · exact setRunningThread_position found
  · exact ⟨_,suspend_self found,rfl⟩

end Effects

/-! ## What a method leaves alone -/

/-- The step leaves a thread, and its place in the queue, as they were. -/
structure Keeps (b : Int64) (vex next : Vex Locks) : Prop where
  thread : next.threadRegistry b = vex.threadRegistry b
  queued : b ∈ next.runnableThreads ↔ b ∈ vex.runnableThreads

section Frame
variable {t vex} {b : Int64} {middle next : Vex Locks}

theorem Keeps.refl (b : Int64) (vex : Vex Locks) : Keeps b vex vex := ⟨rfl,Iff.rfl⟩

theorem Keeps.trans (first : Keeps b vex middle) (second : Keeps b middle next) : Keeps b vex next :=
  ⟨second.thread.trans first.thread,second.queued.trans first.queued⟩

/-- Only the thread's entry and its place in the queue matter. -/
theorem Keeps.of_eq (threads : next.threadRegistry = vex.threadRegistry)
    (queue : next.runnableThreads = vex.runnableThreads) : Keeps b vex next :=
  ⟨by rw [threads],by rw [queue]⟩

theorem setRegistry_keeps (registry : ObjectRegistry Int32) : Keeps b vex (vex.setRegistry registry) := .of_eq rfl rfl

theorem setLocks_keeps (locks : Locks) : Keeps b vex (vex.setLocks locks) := .of_eq rfl rfl

theorem increasePendingNotifications_keeps (manager : Nat) : Keeps b vex (vex.increasePendingNotifications manager) :=
  .of_eq rfl rfl

theorem setThread_keeps (thread : Option Thread) (other : b ≠ t) : Keeps b vex (vex.setThread t thread) :=
  ⟨by simp [setThread,other],Iff.rfl⟩

theorem onThread_keeps (f : Thread → Thread) (other : b ≠ t) : Keeps b vex (vex.onThread t f) :=
  ⟨by simp [onThread,other],Iff.rfl⟩

theorem onState_keeps (f : VexThreadState → VexThreadState) (other : b ≠ t) : Keeps b vex (vex.onState t f) :=
  onThread_keeps _ other

theorem setPosition_keeps (position : Position) (other : b ≠ t) : Keeps b vex (vex.setPosition t position) :=
  onThread_keeps _ other

theorem setBlocked_keeps (blocked : Bool) (other : b ≠ t) : Keeps b vex (vex.setBlocked t blocked) :=
  onThread_keeps _ other

theorem setRunning_keeps (manager : Nat) (running : Option Int64) : Keeps b vex (vex.setRunning manager running) :=
  .of_eq rfl rfl

theorem pushRunnable_keeps (other : b ≠ t) : Keeps b vex (vex.pushRunnable t) :=
  ⟨rfl,by simp [pushRunnable,other]⟩

theorem popRunnable_keeps (other : b ≠ t) : Keeps b vex (vex.popRunnable t) :=
  ⟨rfl,by simp [popRunnable,List.mem_erase_of_ne other]⟩

theorem unset_keeps : Keeps b vex (vex.unsetCurrentThreadFromRunningThread t) := by
  unfold unsetCurrentThreadFromRunningThread
  split
  · exact setRunning_keeps _ none
  · exact .refl b vex

theorem setSuspendedAndPush_keeps (other : b ≠ t) : Keeps b vex (vex.setSuspendedAndPushToRunnables t) :=
  (unset_keeps.trans (onState_keeps _ other)).trans (pushRunnable_keeps other)

theorem onBlockedWaitingInVex_keeps (other : b ≠ t) : Keeps b vex (vex.onBlockedWaitingInVex t) :=
  (onState_keeps _ other).trans (setBlocked_keeps true other)

theorem setRunningThread_keeps (other : b ≠ t) : Keeps b vex (vex.setRunningThread t) := by
  unfold setRunningThread
  refine (onState_keeps (fun state => state.setAwaken false) other).trans ?_
  dsimp only
  split_ifs
  · exact ((onState_keeps _ other).trans (setRunning_keeps _ _)).trans (setBlocked_keeps false other)
  · exact (unset_keeps.trans (onState_keeps _ other)).trans (onBlockedWaitingInVex_keeps other)
  · exact (setSuspendedAndPush_keeps other).trans (onBlockedWaitingInVex_keeps other)

theorem suspendCurrentThread_keeps (suspends : Bool) (other : b ≠ t) :
    Keeps b vex (vex.suspendCurrentThread t suspends) := by
  unfold suspendCurrentThread
  split_ifs
  · exact (setSuspendedAndPush_keeps other).trans (onBlockedWaitingInVex_keeps other)
  · exact .refl b vex
  · exact setRunningThread_keeps other

theorem suspendLooseCurrentThread_keeps (other : b ≠ t) : Keeps b vex (vex.suspendLooseCurrentThread t) := by
  unfold suspendLooseCurrentThread
  split_ifs
  · exact setRunningThread_keeps other
  · exact (setSuspendedAndPush_keeps other).trans (onBlockedWaitingInVex_keeps other)

theorem suspendThread_keeps (other : b ≠ t) : Keeps b vex (vex.suspendThread t) :=
  ((unset_keeps.trans (onState_keeps _ other)).trans (pushRunnable_keeps other)).trans
    (onBlockedWaitingInVex_keeps other)

theorem onReplacedWaiting_keeps (other : b ≠ t) : Keeps b vex (vex.onReplacedWaiting t) :=
  unset_keeps.trans (onBlockedWaitingInVex_keeps other)

theorem setTimedWaitingThread_keeps (other : b ≠ t) : Keeps b vex (vex.setTimedWaitingThread t) :=
  (unset_keeps.trans (onState_keeps _ other)).trans (pushRunnable_keeps other)

theorem onReplacedTimedWaiting_keeps (other : b ≠ t) : Keeps b vex (vex.onReplacedTimedWaiting t) :=
  (setTimedWaitingThread_keeps other).trans (onBlockedWaitingInVex_keeps other)

theorem eraseWaitingObjectId_keeps : Keeps b vex (vex.eraseWaitingObjectIdFromRegistry t) := by
  unfold eraseWaitingObjectIdFromRegistry
  split
  · split
    · exact .refl b vex
    · exact setRegistry_keeps _
  · exact .refl b vex

theorem beforeThreadInterruptAt_keeps (other : b ≠ t) : Keeps b vex (vex.beforeThreadInterruptAt t) :=
  eraseWaitingObjectId_keeps.trans (onState_keeps _ other)

theorem onAnyReplacedWaitingInterrupt_keeps (other : b ≠ t) : Keeps b vex (vex.onAnyReplacedWaitingInterrupt t) := by
  unfold onAnyReplacedWaitingInterrupt
  split
  · split
    · exact beforeThreadInterruptAt_keeps other
    · exact (beforeThreadInterruptAt_keeps other).trans (pushRunnable_keeps other)
  · exact .refl b vex

theorem resumeThread_keeps {manager : Nat} (other : b ≠ t) (resumed : vex.resumeThread t manager = some next) :
    Keeps b vex next := by
  unfold resumeThread at resumed
  split at resumed
  · split at resumed
    · cases resumed
      exact onThread_keeps _ other
    · cases resumed
  · cases resumed

theorem continueThread_keeps {manager : Nat} {leapIsValid : Bool} (other : b ≠ t)
    (continued : vex.continueThread t manager leapIsValid = some next) : Keeps b vex next := by
  unfold continueThread at continued
  have popped : Keeps b vex (vex.popRunnable t) := popRunnable_keeps other
  cases found : vex.threadRegistry t with
  | none => simp [found] at continued
  | some thread =>
    simp only [found] at continued
    split_ifs at continued
    · exact popped.trans (resumeThread_keeps other continued)
    · cases continued
      exact popped.trans (pushRunnable_keeps other)
    · unfold interruptTimedWaitingThread at continued
      split_ifs at continued
      · exact (popped.trans ((onAnyReplacedWaitingInterrupt_keeps other).trans (onState_keeps _ other))).trans
          (resumeThread_keeps other continued)
      · cases continued
        exact popped.trans (pushRunnable_keeps other)
    · cases continued
      exact popped

end Frame

end Vex

end Vexjine
