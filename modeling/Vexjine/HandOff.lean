import Vexjine.ThreadEvents

/-!
# The hand-off of a lock

A thread that is refused a lock blocks; the thread that releases the lock wakes
it through the runnable queue. Whether the hand-off arrives is decided by the
blocked thread's state before it: nothing that other threads do afterwards
changes the outcome.
-/

namespace Vexjine.HandOff
open Vexjine.Runs Vexjine.Vex
set_option linter.unusedSimpArgs false

variable {Locks : Type} (locking : LockOperations Locks)

/-- The thread is blocked in its request of a lock. -/
structure Requests (vex : Vex Locks) (b lockId : Int64) (thread : Thread) : Prop where
  registered : vex.threadRegistry b = some thread
  blocked : thread.blocked = true
  position : thread.position = .requestingLock lockId

def Pops (b : Int64) : Event → Prop
  | .continueThread _ t _ => t = b
  | _ => False

/-- The manager has woken the thread, which becomes the running one unless another runs. -/
structure Resumed (manager : Nat) (b : Int64) (vex : Vex Locks) : Prop where
  awake : (vex.threadRegistry b).any (fun thread => thread.state.awaken) = true
  runs : vex.runningThread manager = none → ∃ next, vex.step locking (.returnFromBlock b) = some next ∧
    next.runningThread manager = some b ∧ (next.threadRegistry b).any (fun thread => thread.state.isRunning) = true

/-- The thread is queued, and whatever happens before it is popped, the manager that pops it
    resumes it. -/
def Arrives (b : Int64) (vex : Vex Locks) : Prop :=
  b ∈ vex.runnableThreads ∧ ∀ events last manager leapIsValid next,
    run (Vex.step locking) vex events = some last → (∀ event ∈ events, ¬ Pops b event) →
      last.continueThread b manager leapIsValid = some next → Resumed locking manager b next

/-- What the hand-off needs of the blocked thread. -/
structure Prepared (vex : Vex Locks) (b : Int64) (thread : Thread) : Prop where
  queued : b ∈ vex.runnableThreads
  timeout : 0 < thread.state.timeout
  notParked : thread.state.parked = false
  notInterrupted : thread.state.afterInterruptedTimedParking = false

/-- A queued thread that the next pop resumes. -/
private structure Ready (b lockId : Int64) (vex : Vex Locks) (thread : Thread) : Prop where
  requests : Requests vex b lockId thread
  prepared : Prepared vex b thread
  suspended : thread.state.currentState = .suspended
  asleep : thread.state.awaken = false

/-! ## The interrupt of the blocked thread -/

variable {locking} {vex next : Vex Locks} {b lockId : Int64} {thread : Thread}

/-- After its interrupt a thread can be resumed exactly if it was prepared: a timeout that is not
    positive becomes zero, and is then no reason to stay in the queue. -/
private theorem prepared_iff : Prepared vex b thread ↔
    b ∈ vex.runnableThreads ∧ thread.state.beforeThreadInterrupt.timeout ≠ 0 ∧
      thread.state.beforeThreadInterrupt.afterInterruptedTimedParking = false := by
  rw [VexThreadState.beforeThreadInterrupt_eq]
  constructor
  · rintro ⟨queued,timeout,notParked,notInterrupted⟩
    refine ⟨queued,?_,by simp [notParked,notInterrupted]⟩
    dsimp only
    split_ifs <;> grind
  · rintro ⟨queued,timeout,unmarked⟩
    have positive : 0 < thread.state.timeout := by
      dsimp only at timeout
      split_ifs at timeout <;> grind
    simp only [positive,decide_true,Bool.and_true,Bool.or_eq_false_iff] at unmarked
    exact ⟨queued,positive,unmarked.2,unmarked.1⟩

private theorem queue_of_positive (registered : vex.threadRegistry b = some thread) (timeout : 0 < thread.state.timeout) :
    (vex.onAnyReplacedWaitingInterrupt b).runnableThreads = vex.runnableThreads := by
  rw [interrupt_queue registered,if_pos ⟨by grind,by grind⟩]

/-- An interrupt makes a prepared thread ready. -/
private theorem ready_of_interrupt (requests : Requests vex b lockId thread) (prepared : Prepared vex b thread) :
    Ready b lockId (vex.onAnyReplacedWaitingInterrupt b)
      { thread with state := thread.state.beforeThreadInterrupt } := by
  have still : ¬ thread.state.timeout < 0 := by
    have positive := prepared.timeout
    grind
  rw [VexThreadState.beforeThreadInterrupt_eq]
  refine ⟨⟨?_,requests.blocked,requests.position⟩,⟨?_,?_,rfl,?_⟩,rfl,rfl⟩
  · rw [interrupt_thread requests.registered,VexThreadState.beforeThreadInterrupt_eq]
  · rw [queue_of_positive requests.registered prepared.timeout]
    exact prepared.queued
  · simpa [still] using prepared.timeout
  · simp [prepared.notParked,prepared.notInterrupted]

/-! ## Between the hand-off and the pop -/

private theorem ready_robust (b lockId : Int64) :
    Robust b fun vex : Vex Locks => ∃ thread, Ready b lockId vex thread where
  kept := by
    rintro vex next keeps ⟨thread,⟨registered,blocked,position⟩,⟨queued,timeout,notParked,notInterrupted⟩,suspended,asleep⟩
    exact ⟨thread,⟨keeps.thread.trans registered,blocked,position⟩,
      ⟨keeps.queued.mpr queued,timeout,notParked,notInterrupted⟩,suspended,asleep⟩
  interrupted := by
    rintro vex ⟨thread,ready⟩
    exact ⟨_,ready_of_interrupt ready.requests ready.prepared⟩
  flagged := by
    rintro vex timedOut ⟨thread,⟨registered,blocked,position⟩,⟨queued,timeout,notParked,notInterrupted⟩,suspended,asleep⟩
    exact ⟨{ thread with state := thread.state.setTimedOut timedOut },⟨onState_self _ registered,blocked,position⟩,
      ⟨queued,timeout,notParked,notInterrupted⟩,suspended,asleep⟩

/-- A blocked thread makes no step of its own. -/
private theorem actor_refused {may : Thread → Bool} (registered : vex.threadRegistry b = some thread)
    (refused : may thread = false) : vex.actor b may = none := by simp [actor,registered,refused]

private theorem ready_step {event : Event} (ready : Ready b lockId vex thread) (notPopped : ¬ Pops b event)
    (stepped : vex.step locking event = some next) : ∃ thread, Ready b lockId next thread := by
  obtain ⟨⟨registered,blocked,position⟩,prepared,suspended,asleep⟩ := id ready
  by_cases named : event.thread = some b
  · have notFree : thread.isFree = false := by simp [Thread.isFree,blocked]
    have notOutside : thread.isOutside = false := by simp [Thread.isOutside,notFree]
    cases event with
    | signal manager objectId => cases named
    | broadcast manager objectId => cases named
    | interrupt t =>
      cases named
      have notWaiting : thread.state.isWaiting = false := by simp [VexThreadState.isWaiting,suspended]
      simp only [Vex.step,interruptThread,registered,notWaiting] at stepped
      cases stepped
      exact ⟨thread,ready⟩
    | unpark t =>
      cases named
      simp only [Vex.step,registered,onUnpark_of_notParked b vex prepared.notParked] at stepped
      cases stepped
      exact ⟨_,⟨onState_self _ registered,blocked,position⟩,
        ⟨prepared.queued,prepared.timeout,prepared.notParked,prepared.notInterrupted⟩,suspended,asleep⟩
    | continueThread manager t leapIsValid => exact absurd (Option.some.inj named) notPopped
    | _ =>
      cases named
      simp [Vex.step,actor_refused registered,notFree,notOutside,blocked,asleep,registered] at stepped
  · exact (ready_robust b lockId).step ⟨thread,ready⟩ named stepped

private theorem ready_run {events : List Event} (ready : ∃ thread, Ready b lockId vex thread)
    (notPopped : ∀ event ∈ events, ¬ Pops b event) (executed : run (Vex.step locking) vex events = some next) :
    ∃ thread, Ready b lockId next thread := by
  induction events generalizing vex with
  | nil =>
    cases executed
    exact ready
  | cons event rest ih =>
    obtain ⟨middle,stepped,remaining⟩ := (run_cons vex event rest next).mp executed
    obtain ⟨thread,now⟩ := ready
    exact ih (ready_step now (notPopped event List.mem_cons_self) stepped)
      (fun later member => notPopped later (List.mem_cons_of_mem event member)) remaining

/-! ## The pop -/

private theorem continue_suspended (manager : Nat) (leapIsValid : Bool) (registered : vex.threadRegistry b = some thread)
    (queued : b ∈ vex.runnableThreads) (suspended : thread.state.currentState = .suspended)
    (notTimedOut : thread.state.timedOut = false) :
    vex.continueThread b manager leapIsValid =
      if thread.state.timeout ≠ 0 ∧ thread.state.afterInterruptedTimedParking = false then
        (vex.popRunnable b).resumeThread b manager
      else some ((vex.popRunnable b).pushRunnable b) := by
  unfold continueThread
  simp [registered,queued,VexThreadState.isSuspended,suspended,notTimedOut,
    VexThreadState.isNotAfterInterruptedTimedParking]

/-- A thread that its manager has woken becomes the running one if the manager has none. -/
private theorem resumed_of_resume {manager : Nat} (requests : Requests vex b lockId thread)
    (resumed : vex.resumeThread b manager = some next) : Resumed locking manager b next := by
  obtain ⟨registered,blocked,position⟩ := requests
  simp only [resumeThread,registered,blocked,if_true,Option.some.injEq] at resumed
  have woken : next.threadRegistry b = some { thread with
      state := thread.state.onThreadResumeByManager
      threadCurrentlyControllingManager := manager } := by
    rw [← resumed]
    exact onThread_self _ registered
  refine ⟨by simp [woken,VexThreadState.onThreadResumeByManager,VexThreadState.setAwaken],fun idle => ?_⟩
  have controlled : next.managerOf b = manager := by simp [managerOf,woken]
  have stepped : next.step locking (.returnFromBlock b) = some (next.returnFromBlock locking b { thread with
      state := thread.state.onThreadResumeByManager
      threadCurrentlyControllingManager := manager }) := by
    simp [Vex.step,actor,woken,blocked,VexThreadState.onThreadResumeByManager,VexThreadState.setAwaken]
  refine ⟨_,stepped,?_⟩
  unfold returnFromBlock
  rw [setRunningThread_idle (controlled.symm ▸ idle)]
  simp [position,onVexExit,onState,onThread,setBlocked,setRunning,setPosition,isBlocked,woken,controlled,
    VexThreadState.isRunning,VexThreadState.onVexExit,VexThreadState.setRunning,VexThreadState.setNewState]

private theorem resumed_of_ready {manager : Nat} {leapIsValid : Bool} (ready : Ready b lockId vex thread)
    (continued : vex.continueThread b manager leapIsValid = some next) : Resumed locking manager b next := by
  obtain ⟨requests,⟨queued,timeout,notParked,notInterrupted⟩,suspended,asleep⟩ := ready
  have nonzero : thread.state.timeout ≠ 0 := by grind
  have popped : Requests (vex.popRunnable b) b lockId thread := ⟨requests.registered,requests.blocked,requests.position⟩
  refine resumed_of_resume popped ?_
  simpa [continueThread,requests.registered,queued,VexThreadState.isSuspended,suspended,
    VexThreadState.isNotAfterInterruptedTimedParking,notInterrupted,nonzero] using continued

/-- A thread that the interrupt leaves without a positive timeout is pushed back for ever, or was
    never queued. -/
private theorem prepared_of_arrives (requests : Requests vex b lockId thread)
    (arrives : Arrives locking b (vex.onAnyReplacedWaitingInterrupt b)) : Prepared vex b thread := by
  obtain ⟨queued,popped⟩ := arrives
  have interrupted := interrupt_thread requests.registered
  have resumable : thread.state.beforeThreadInterrupt.timeout ≠ 0 ∧
      thread.state.beforeThreadInterrupt.afterInterruptedTimedParking = false := by
    by_contra refused
    have suspended : thread.state.beforeThreadInterrupt.currentState = .suspended := by
      rw [VexThreadState.beforeThreadInterrupt_eq]
    have notTimedOut : thread.state.beforeThreadInterrupt.timedOut = false := by
      rw [VexThreadState.beforeThreadInterrupt_eq]
    have continued := continue_suspended 0 false interrupted queued suspended notTimedOut
    rw [if_neg refused] at continued
    have resumed := popped [] _ 0 false _ rfl (by simp) continued
    have awake := resumed.awake
    have asleep : thread.state.beforeThreadInterrupt.awaken = false := by rw [VexThreadState.beforeThreadInterrupt_eq]
    simp [pushRunnable,popRunnable,interrupted,asleep] at awake
  refine prepared_iff.mpr ⟨?_,resumable⟩
  have positive : 0 < thread.state.timeout := by
    have nonzero := resumable.1
    rw [VexThreadState.beforeThreadInterrupt_eq] at nonzero
    dsimp only at nonzero
    split_ifs at nonzero <;> grind
  rwa [queue_of_positive requests.registered positive] at queued

/-! ## The hand-off -/

/-- The release interrupts the selected thread; its own timeout is set on the releasing one. -/
private theorem release_eq {a : Int64} (selected : (locking.releaseAndGetNext vex.lockRegistry lockId).1 = some b) :
    vex.onLocklessReleasingLock locking a lockId =
      ((vex.setLocks (locking.releaseAndGetNext vex.lockRegistry lockId).2).onState a
        fun state => state.setTimeout 0).onAnyReplacedWaitingInterrupt b := by
  unfold onLocklessReleasingLock
  simp only [selected]

/-- The hand-off of a lock to a blocked thread arrives exactly if the thread was prepared for it:
    it stood in the queue already, with a positive timeout and no mark of a park. -/
theorem hand_off_arrives_iff (locking : LockOperations Locks) (vex : Vex Locks) (a b lockId : Int64) (thread : Thread)
    (other : b ≠ a) (requests : Requests vex b lockId thread)
    (selected : (locking.releaseAndGetNext vex.lockRegistry lockId).1 = some b) :
    Arrives locking b (vex.onLocklessReleasingLock locking a lockId) ↔ Prepared vex b thread := by
  rw [release_eq selected]
  have keeps : Keeps b vex ((vex.setLocks (locking.releaseAndGetNext vex.lockRegistry lockId).2).onState a
      fun state => state.setTimeout 0) := (setLocks_keeps _).trans (onState_keeps _ other)
  generalize (vex.setLocks (locking.releaseAndGetNext vex.lockRegistry lockId).2).onState a
    (fun state => state.setTimeout 0) = before at keeps
  have still : Requests before b lockId thread := ⟨keeps.thread.trans requests.registered,requests.blocked,requests.position⟩
  have same : Prepared before b thread ↔ Prepared vex b thread := by
    constructor
    · rintro ⟨queued,timeout,notParked,notInterrupted⟩
      exact ⟨keeps.queued.mp queued,timeout,notParked,notInterrupted⟩
    · rintro ⟨queued,timeout,notParked,notInterrupted⟩
      exact ⟨keeps.queued.mpr queued,timeout,notParked,notInterrupted⟩
  rw [← same]
  constructor
  · exact prepared_of_arrives still
  · intro prepared
    have ready := ready_of_interrupt still prepared
    refine ⟨ready.prepared.queued,fun events last manager leapIsValid next executed notPopped continued => ?_⟩
    obtain ⟨thread,now⟩ := ready_run ⟨_,ready⟩ notPopped executed
    exact resumed_of_ready now continued

/-- Thread 2 keeps an entry of the queue from a wait without time, and a positive timeout from the
    next one; then it is refused lock 5. -/
private def preparedEvents : List Event := [.spawn 1 0 0 false,.requestLock 1 5,.spawn 2 1 0 false,
  .register 2 7 false,.timedWait 2 0 0,.signal 0 7,.continueThread 1 2 false,.returnFromBlock 2,
  .register 2 7 false,.timedWait 2 1 0,.signal 0 7,.continueThread 1 2 false,.returnFromBlock 2,.requestLock 2 5]

/-- The test that the thread is blocked in its request of the lock and is the next to be handed it. -/
private def isNext (b lockId : Int64) (vex : Vex (LockRegistry.Registry (LockRegistry.LockRegistryInfo Int64)))
    (thread : Thread) : Bool :=
  thread.blocked && decide (thread.position = .requestingLock lockId) &&
    decide ((LockRegistry.operations.releaseAndGetNext vex.lockRegistry lockId).1 = some b)

theorem hand_off_arrives_after_timed_waits : ∃ vex : Vex (LockRegistry.Registry (LockRegistry.LockRegistryInfo Int64)),
    run (Vex.step LockRegistry.operations) (Vex.start fun _ => none) preparedEvents = some vex ∧
      Arrives LockRegistry.operations 2 (vex.onLocklessReleasingLock LockRegistry.operations 1 5) := by
  have checked : (run (Vex.step LockRegistry.operations) (Vex.start fun _ => none) preparedEvents).any (fun vex =>
      decide (2 ∈ vex.runnableThreads) && (vex.threadRegistry 2).any fun thread => isNext 2 5 vex thread &&
        decide (0 < thread.state.timeout) && !thread.state.parked && !thread.state.afterInterruptedTimedParking) = true := by
    decide +kernel
  obtain ⟨vex,executed,properties⟩ := exists_of_checked checked
  refine ⟨vex,executed,?_⟩
  cases registered : vex.threadRegistry 2 with
  | none => simp [registered] at properties
  | some thread =>
    simp only [registered,Option.any_some,isNext,Bool.and_eq_true,decide_eq_true_eq,Bool.not_eq_true'] at properties
    obtain ⟨queued,⟨⟨⟨⟨blocked,position⟩,selected⟩,timeout⟩,notParked⟩,notInterrupted⟩ := properties
    exact (hand_off_arrives_iff LockRegistry.operations vex 1 2 5 thread (by decide) ⟨registered,blocked,position⟩
      selected).mpr ⟨queued,timeout,notParked,notInterrupted⟩

/-- Under one manager thread 1 takes lock 5 and is suspended, and thread 2 is refused the lock. -/
private def refusedEvents : List Event := [.spawn 1 0 0 false,.requestLock 1 5,.suspend 1,.spawn 2 0 0 false,
  .requestLock 2 5,.continueThread 0 1 false,.returnFromBlock 1]

/-- A thread that has never waited with a timeout is selected and left out of the queue. -/
theorem hand_off_is_lost : ∃ (vex : Vex (LockRegistry.Registry (LockRegistry.LockRegistryInfo Int64))) (thread : Thread),
    run (Vex.step LockRegistry.operations) (Vex.start fun _ => none) refusedEvents = some vex ∧
      Requests vex 2 5 thread ∧ (LockRegistry.operations.releaseAndGetNext vex.lockRegistry 5).1 = some 2 ∧
      (vex.onLocklessReleasingLock LockRegistry.operations 1 5).runnableThreads = [] ∧
      ¬ Arrives LockRegistry.operations 2 (vex.onLocklessReleasingLock LockRegistry.operations 1 5) := by
  have checked : (run (Vex.step LockRegistry.operations) (Vex.start fun _ => none) refusedEvents).any (fun vex =>
      (vex.threadRegistry 2).any (isNext 2 5 vex) &&
        decide ((vex.onLocklessReleasingLock LockRegistry.operations 1 5).runnableThreads = [])) = true := by
    decide +kernel
  obtain ⟨vex,executed,properties⟩ := exists_of_checked checked
  cases registered : vex.threadRegistry 2 with
  | none => simp [registered] at properties
  | some thread =>
    simp only [registered,Option.any_some,isNext,Bool.and_eq_true,decide_eq_true_eq] at properties
    obtain ⟨⟨⟨blocked,position⟩,selected⟩,unqueued⟩ := properties
    refine ⟨vex,thread,executed,⟨registered,blocked,position⟩,selected,unqueued,?_⟩
    rintro ⟨queued,-⟩
    rw [unqueued] at queued
    cases queued

end Vexjine.HandOff
