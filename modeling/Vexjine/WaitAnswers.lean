import Vexjine.WakeUps

/-!
# The answers of replaced waits

The flag `timedOut` is the answer of a wait and also a permission of the scheduler to
resume its thread. From the step that ends a wait to the return of its thread, the flag
has to keep the answer that tells an interrupt from a signal and from a time-out.
-/

namespace Vexjine.WaitAnswers
open Vexjine.Runs Vexjine.Vex Vexjine.Signals Vexjine.WakeUps
set_option linter.unusedSimpArgs false

/-! ## Waits and answers -/

/-- Sleeps and the waits that VEX handles internally. -/
def isReplacedWait : Position → Bool
  | .replacedWaiting _ resumeShouldBeHandledInternally => resumeShouldBeHandledInternally
  | .replacedTimedWaiting _ _ | .sleeping => true
  | _ => false

def isTimed : Position → Bool
  | .replacedTimedWaiting _ _ | .sleeping => true
  | _ => false

variable {Locks : Type} (locking : LockOperations Locks) (vex : Vex Locks) (b : Int64)

/-- The thread has not left its wait. -/
def inWait : Bool := (vex.threadRegistry b).any fun thread => isReplacedWait thread.position

/-- Its wait has not ended. -/
def waits : Bool := (vex.threadRegistry b).any fun thread => isReplacedWait thread.position && thread.state.isWaiting

def isAwake : Bool := (vex.threadRegistry b).any fun thread => thread.state.awaken

/-- What the wait call returns at the step, unless the thread is suspended again. -/
def returned : Event → Option Bool
  | .returnFromBlock t =>
    if t = b then
      (vex.actor b fun thread => thread.blocked && thread.state.awaken && isReplacedWait thread.position).bind fun _ =>
        if (vex.setRunningThread b).isBlocked b then none
        else ((vex.setRunningThread b).threadRegistry b).map fun thread => thread.state.timedOut
    else none
  | _ => none

/-- The answer that tells an interrupt from the other ends of the thread's wait. -/
def reports (event : Event) : Bool := decide (event ≠ .interrupt b)

/-- A released lock is not handed to a thread in a wait. -/
def sparesWaits (lockId : Int64) : Bool :=
  (locking.releaseAndGetNext vex.lockRegistry lockId).1.all fun selected => !inWait vex selected

/-- The thread is suspended without a loss: it runs at once, or keeps its place in the queue. -/
def keepsPlace (t : Int64) : Bool :=
  decide (vex.runningThread (vex.managerOf t) = none) || decide (vex.runningThread (vex.managerOf t) = some t) ||
    decide (t ∈ vex.runnableThreads)

/-- A timed wait has a positive timeout; interrupts only end timed waits, whose threads are not recorded as
    parked; locks are handed past waits; an interrupted thread returns where it keeps its answer. -/
def Fits : Event → Prop
  | .timedWait _ timeout nanoTimeout | .sleep _ timeout nanoTimeout => 0 < ensureTimeoutIsLessThanMax timeout nanoTimeout
  | .interrupt t => waits vex t = true →
    (vex.threadRegistry t).all (fun thread => isTimed thread.position && !thread.state.parked) = true
  | .register _ objectId updateLockRegistry => updateLockRegistry = true → sparesWaits locking vex objectId = true
  | .releaseLock _ lockId => sparesWaits locking vex lockId = true
  | .returnFromBlock t =>
    (vex.threadRegistry t).any (fun thread => isReplacedWait thread.position && !thread.state.timedOut) = true →
      keepsPlace vex t = true
  | _ => True

instance decidableFits (event : Event) : Decidable (Fits locking vex event) := by
  cases event <;> unfold Fits <;> infer_instance

/-- Until its wait returns, the thread is awake or queued, and any manager that pops it resumes it; awake, it
    returns the expected answer under an idle manager, and never another one. -/
def Answered (expected : Bool) : Prop :=
  ∀ events last, run (Vex.step locking) vex events = some last → Meets (Vex.step locking) (Fits locking) vex events →
    Meets (Vex.step locking) (fun vex event => returned vex b event = none) vex events →
      (isAwake last b = true ∨ b ∈ last.runnableThreads) ∧
      (∀ manager leapIsValid next, last.continueThread b manager leapIsValid = some next → isAwake next b = true) ∧
      (isAwake last b = true → last.runningThread (last.managerOf b) = none →
        returned last b (.returnFromBlock b) = some expected) ∧
      ∀ event answer, Fits locking last event → returned last b event = some answer → answer = expected

/-! ## Phases of a wait -/

/-- The wait has not ended; a timed one has its place in the queue. -/
private structure Waiting (thread : Thread) : Prop where
  registered : vex.threadRegistry b = some thread
  blocked : thread.blocked = true
  position : isReplacedWait thread.position = true
  waiting : thread.state.currentState = .waiting
  asleep : thread.state.awaken = false
  timed : isTimed thread.position = true →
    0 < thread.state.timeout ∧ thread.state.afterInterruptedTimedParking = false ∧ b ∈ vex.runnableThreads
  untimed : isTimed thread.position = false → thread.state.timeout = 0 ∨ thread.state.timeout = -2

/-- The wait has ended, and the thread has not returned from it. -/
private structure Ended (expected : Bool) (thread : Thread) : Prop where
  registered : vex.threadRegistry b = some thread
  blocked : thread.blocked = true
  position : isReplacedWait thread.position = true
  suspended : thread.state.currentState = .suspended
  notParked : thread.state.parked = false
  answer : thread.state.timedOut = expected
  resumable : expected = false → thread.state.timeout ≠ 0 ∧ thread.state.afterInterruptedTimedParking = false
  queued : thread.state.awaken = true ∨ b ∈ vex.runnableThreads

section Phases
variable {locking} {vex next : Vex Locks} {b : Int64} {expected : Bool} {thread : Thread}

private theorem waiting_of_keeps (keeps : Keeps b vex next) (waiting : Waiting vex b thread) : Waiting next b thread := by
  obtain ⟨registered,blocked,position,isWaiting,asleep,timed,untimed⟩ := waiting
  refine ⟨keeps.thread.trans registered,blocked,position,isWaiting,asleep,fun isTimed => ?_,untimed⟩
  obtain ⟨positive,unmarked,queued⟩ := timed isTimed
  exact ⟨positive,unmarked,keeps.queued.mpr queued⟩

private theorem ended_of_keeps (keeps : Keeps b vex next) (ended : Ended vex b expected thread) :
    Ended next b expected thread := by
  obtain ⟨registered,blocked,position,suspended,notParked,answer,resumable,queued⟩ := ended
  exact ⟨keeps.thread.trans registered,blocked,position,suspended,notParked,answer,resumable,
    queued.imp_right keeps.queued.mpr⟩

private theorem waits_of_waiting (waiting : Waiting vex b thread) : waits vex b = true := by
  simp [waits,waiting.registered,waiting.position,VexThreadState.isWaiting,waiting.waiting]

private theorem not_waits_of_ended (ended : Ended vex b expected thread) : waits vex b = false := by
  simp [waits,ended.registered,VexThreadState.isWaiting,ended.suspended]

/-! ## Interrupts and signals -/

/-- A wait ends with the flag that the interrupter sets; an interrupt proper has to find a timed wait
    without the mark of a park. -/
private theorem ended_of_interrupt (isThreadInterruptCall : Bool) (waiting : Waiting vex b thread)
    (fits : isThreadInterruptCall = true → isTimed thread.position = true ∧ thread.state.parked = false) :
    ∃ after, Ended (vex.interruptThread b isThreadInterruptCall).2 b (!isThreadInterruptCall) after ∧
      b ∈ (vex.interruptThread b isThreadInterruptCall).2.runnableThreads := by
  have isWaiting : thread.state.isWaiting = true := by simp [VexThreadState.isWaiting,waiting.waiting]
  have queued : b ∈ (vex.interruptThread b isThreadInterruptCall).2.runnableThreads := by
    rw [interruptThread_queue isThreadInterruptCall waiting.registered isWaiting]
    cases timed : isTimed thread.position with
    | true => exact .inl (waiting.timed timed).2.2
    | false => exact .inr (waiting.untimed timed)
  have woken := interruptThread_thread isThreadInterruptCall waiting.registered isWaiting
  rw [VexThreadState.beforeThreadInterrupt_eq] at woken
  refine ⟨_,⟨woken,waiting.blocked,waiting.position,rfl,rfl,rfl,?_,.inr queued⟩,queued⟩
  intro interrupted
  obtain ⟨timed,notParked⟩ := fits (by simpa using interrupted)
  obtain ⟨positive,unmarked,-⟩ := waiting.timed timed
  refine ⟨?_,by simp [VexThreadState.setTimedOut,unmarked,notParked]⟩
  show (if thread.state.timeout < 0 then (0 : Int64) else thread.state.timeout) ≠ 0
  split_ifs <;> grind

/-- A second interrupt finds no waiting thread. -/
private theorem ended_interruptThread (isThreadInterruptCall : Bool) (ended : Ended vex b expected thread) :
    (vex.interruptThread b isThreadInterruptCall).2 = vex := by
  apply interruptThread_idle
  rw [isWaiting_of_found ended.registered]
  simp [VexThreadState.isWaiting,ended.suspended]

/-- A thread in a wait that is ended by nothing but signals. -/
private def Signalled (vex : Vex Locks) (b : Int64) : Prop :=
  (∃ thread, Waiting vex b thread) ∨ ∃ thread, Ended vex b true thread

private theorem signalled_of_keeps (keeps : Keeps b vex next) (signalled : Signalled vex b) : Signalled next b :=
  signalled.imp (fun ⟨thread,waiting⟩ => ⟨thread,waiting_of_keeps keeps waiting⟩)
    fun ⟨thread,ended⟩ => ⟨thread,ended_of_keeps keeps ended⟩

private theorem signalled_interruptThread (t : Int64) (signalled : Signalled vex b) :
    Signalled (vex.interruptThread t false).2 b := by
  by_cases same : b = t
  · subst same
    obtain ⟨thread,waiting⟩ | ⟨thread,ended⟩ := signalled
    · obtain ⟨after,ended,-⟩ := ended_of_interrupt false waiting (by simp)
      exact .inr ⟨after,ended⟩
    · rw [ended_interruptThread false ended]
      exact .inr ⟨thread,ended⟩
  · exact signalled_of_keeps (interruptThread_keeps false same) signalled

/-! ## Steps of the others -/

/-- A lock is handed past a thread in a wait. -/
private theorem released_keeps {t lockId : Int64} (other : b ≠ t) (inside : inWait vex b = true)
    (spares : sparesWaits locking vex lockId = true) : Keeps b vex (vex.onLocklessReleasingLock locking t lockId) := by
  unfold onLocklessReleasingLock
  unfold sparesWaits at spares
  dsimp only
  cases selected : (locking.releaseAndGetNext vex.lockRegistry lockId).1 with
  | none => exact setLocks_keeps _
  | some blockedThread =>
    have past : b ≠ blockedThread := by
      rintro rfl
      simp [selected,inside] at spares
    exact ((setLocks_keeps _).trans (onState_keeps _ other)).trans (onAnyReplacedWaitingInterrupt_keeps past)

private theorem others_keep {P : Vex Locks → Prop} (kept : ∀ {vex next}, Keeps b vex next → P vex → P next)
    (called : ∀ {vex} t, P vex → P (vex.interruptThread t false).2) {event : Event} (holds : P vex)
    (inside : inWait vex b = true) (fits : Fits locking vex event) (other : event.thread ≠ some b)
    (stepped : vex.step locking event = some next) : P next := by
  have interruptEveryNext : ∀ (objectId : Int64) (rounds : Nat) (vex : Vex Locks), P vex →
      P (vex.interruptEveryNext objectId rounds).2 := by
    intro objectId rounds
    induction rounds with
    | zero => exact fun vex holds => holds
    | succ rounds ih =>
      intro vex holds
      unfold Vex.interruptEveryNext
      dsimp only
      split_ifs
      · exact holds
      · exact ih _ (called _ (kept (setRegistry_keeps _) holds))
  by_cases calm : event.interruptsOthers = false
  · exact kept (step_keeps stepped other calm) holds
  · cases event with
    | register t objectId updateLockRegistry =>
      obtain ⟨thread,-,rfl⟩ := Option.map_eq_some_iff.mp stepped
      have apart : b ≠ t := fun same => other (congrArg some same.symm)
      refine kept ?_ holds
      unfold beforeReleasingLockOfAnyReplacedWaiting
      dsimp only
      refine Keeps.trans ?_ (setPosition_keeps _ apart)
      split_ifs with updates
      · exact (setRegistry_keeps _).trans (released_keeps apart inside (fits updates))
      · exact setRegistry_keeps _
    | signal manager objectId =>
      cases stepped
      unfold onSignallingOneThreadOnObject
      dsimp only
      split_ifs
      · exact called _ holds
      · exact kept (increasePendingNotifications_keeps manager) holds
    | broadcast manager objectId =>
      cases stepped
      unfold onSignallingAllThreadsOnObject
      split_ifs
      · exact kept (increasePendingNotifications_keeps manager) holds
      · exact interruptEveryNext objectId _ vex holds
    | releaseLock t lockId =>
      obtain ⟨thread,-,rfl⟩ := Option.map_eq_some_iff.mp stepped
      exact kept (released_keeps (fun same => other (congrArg some same.symm)) inside fits) holds
    | _ => exact absurd rfl calm

/-! ## Steps on the thread itself -/

/-- An unpark of a waiting thread leaves it waiting: only a stale record of a park is removed. -/
private theorem waiting_unpark (waiting : Waiting vex b thread) : ∃ after, Waiting (vex.onUnpark b thread) b after := by
  obtain ⟨registered,blocked,position,isWaiting,asleep,timed,untimed⟩ := waiting
  have flags := onState_self (fun _ => thread.state.getAndSetParkedState.2) registered
  by_cases parked : thread.state.parked = true
  · have cleared : thread.state.getAndSetParkedState =
        (true,{ thread.state with alreadyUnparked := false,parked := false }) := by
      simp [VexThreadState.getAndSetParkedState,parked]
    rw [cleared] at flags
    unfold onUnpark
    simp only [cleared,if_true]
    split_ifs with positive
    · exact ⟨_,onState_self _ flags,blocked,position,isWaiting,asleep,timed,untimed⟩
    · have woken := onWrappedWaitingInterrupt_self flags
      rw [VexThreadState.beforeThreadInterrupt_eq] at woken
      refine ⟨_,woken,blocked,position,rfl,rfl,?_,?_⟩
      · exact fun isTimed => absurd (timed isTimed).1 positive
      · intro isUntimed
        show (if thread.state.timeout < 0 then (0 : Int64) else thread.state.timeout) = 0 ∨ _
        obtain zero | hidden := untimed isUntimed
        · exact .inl (by simp [zero])
        · exact .inl (by simp [hidden])
  · rw [onUnpark_of_notParked b vex (by simpa using parked)]
    exact ⟨_,onState_self _ registered,blocked,position,isWaiting,asleep,timed,untimed⟩

/-- A pop of a waiting thread ends its wait at the time-out, or leaves it waiting. -/
private theorem signalled_continue {manager : Nat} {leapIsValid : Bool} (waiting : Waiting vex b thread)
    (continued : vex.continueThread b manager leapIsValid = some next) : Signalled next b := by
  obtain ⟨registered,blocked,position,isWaiting,asleep,timed,untimed⟩ := waiting
  obtain ⟨back,queued⟩ | ⟨-,notTimed,rfl⟩ | ⟨suspended,-⟩ | ⟨-,-,-,resumed⟩ := continueThread_cases registered continued
  · exact .inl ⟨thread,back,blocked,position,isWaiting,asleep,fun isTimed => ⟨(timed isTimed).1,(timed isTimed).2.1,queued⟩,
      untimed⟩
  · refine .inl ⟨thread,registered,blocked,position,isWaiting,asleep,fun isTimed => ?_,untimed⟩
    simp [VexThreadState.isTimedWaiting,VexThreadState.isWaiting,isWaiting] at notTimed
    exact absurd (timed isTimed).1 (by simpa using notTimed)
  · simp [VexThreadState.isSuspended,isWaiting] at suspended
  · rw [VexThreadState.beforeThreadInterrupt_eq] at resumed
    exact .inr ⟨_,resumed,blocked,position,rfl,rfl,rfl,by simp,.inl rfl⟩

/-- A popped thread whose wait has ended is resumed. -/
private theorem ended_continue {manager : Nat} {leapIsValid : Bool} (ended : Ended vex b expected thread)
    (continued : vex.continueThread b manager leapIsValid = some next) :
    ∃ after, Ended next b expected after ∧ after.state.awaken = true := by
  obtain ⟨registered,blocked,position,suspended,notParked,answer,resumable,-⟩ := ended
  have queued : b ∈ vex.runnableThreads := by
    by_contra absent
    simp [continueThread,registered,absent] at continued
  have continues : mayContinue thread.state = true := by
    cases expected with
    | true => simp [mayContinue,VexThreadState.isSuspended,suspended,answer]
    | false =>
      obtain ⟨nonzero,unmarked⟩ := resumable rfl
      simp [mayContinue,VexThreadState.isSuspended,suspended,nonzero,VexThreadState.isNotAfterInterruptedTimedParking,unmarked]
  rw [continueThread_of_resumable manager leapIsValid ⟨queued,by simpa [registered] using continues⟩] at continued
  have popped : (vex.popRunnable b).threadRegistry b = some thread := registered
  obtain ⟨-,-,resumed⟩ := resumeThread_self popped continued
  exact ⟨_,⟨resumed,blocked,position,suspended,notParked,answer,resumable,.inl rfl⟩,rfl⟩

/-- An unpark leaves a thread whose wait has ended a permit. -/
private theorem ended_unpark (ended : Ended vex b expected thread) :
    ∃ after, Ended (vex.onUnpark b thread) b expected after := by
  obtain ⟨registered,blocked,position,suspended,notParked,answer,resumable,queued⟩ := ended
  rw [onUnpark_of_notParked b vex notParked]
  exact ⟨_,onState_self _ registered,blocked,position,suspended,notParked,answer,resumable,queued⟩

/-- A thread that leaves the block in its wait is in no wait afterwards. -/
private theorem left_of_running {after : Thread} (position : isReplacedWait thread.position = true) (runs : (vex.setRunningThread b).isBlocked b = false)
    (found : (vex.returnFromBlock locking b thread).threadRegistry b = some after) :
    isReplacedWait after.position = false := by
  have requested (lockId : Int64) {vex : Vex Locks}
      (found : (vex.onLocklessRequestingLock locking b lockId).threadRegistry b = some after) :
      isReplacedWait after.position = false := by
    obtain outside | requesting := requestLock_position lockId found
    · rw [outside]
      rfl
    · rw [requesting]
      rfl
  unfold returnFromBlock at found
  dsimp only at found
  rw [runs,if_neg (by simp)] at found
  cases waits : thread.position with
  | replacedWaiting objectId updateLockRegistry =>
    simp only [waits,onReplacedWaitingEnd] at found
    split_ifs at found
    · exact requested objectId found
    · rw [onVexExit_position found]
      rfl
  | replacedTimedWaiting objectId updateLockRegistry =>
    simp only [waits,onReplacedTimedWaitingEnd] at found
    split_ifs at found
    · exact requested objectId found
    · rw [onVexExit_position found]
      rfl
  | sleeping =>
    simp only [waits] at found
    rw [onVexExit_position found]
    rfl
  | _ =>
    rw [waits] at position
    cases position

/-- A thread that keeps its place runs, or is suspended in the queue. -/
private theorem setRunningThread_placed (found : vex.threadRegistry b = some thread) (placed : keepsPlace vex b = true) :
    (vex.setRunningThread b).threadRegistry b =
        some { thread with state := (thread.state.setAwaken false).setRunning,blocked := false } ∨
      b ∈ vex.runnableThreads ∧ (vex.setRunningThread b).threadRegistry b =
        some { thread with state := thread.state.setSuspended,blocked := true } ∧
      (vex.setRunningThread b).runnableThreads = vex.runnableThreads := by
  obtain ⟨running,-⟩ | again | ⟨-,pushed⟩ := setRunningThread_cases found
  · exact .inl running
  · exact .inr again
  · have stays : (vex.setRunningThread b).runnableThreads = vex.runnableThreads := by
      have same : (vex.onState b fun state => state.setAwaken false).managerOf b = vex.managerOf b :=
        managerOf_onThread _ fun _ => rfl
      simp only [keepsPlace,Bool.or_eq_true,decide_eq_true_eq] at placed
      unfold setRunningThread
      dsimp only
      rw [same]
      split_ifs with free queued
      · rfl
      · simp [onBlockedWaitingInVex,onState,setBlocked,onThread]
      · exact absurd placed (not_or.mpr ⟨free,queued⟩)
    have length := congrArg List.length (stays.symm.trans pushed)
    simp at length

private theorem stepped_return (awake : thread.state.awaken = true) (ended : Ended vex b expected thread) :
    vex.step locking (.returnFromBlock b) = some (vex.returnFromBlock locking b thread) := by
  simp [Vex.step,actor,ended.registered,ended.blocked,awake]

private theorem returned_eq (awake : thread.state.awaken = true) (ended : Ended vex b expected thread) :
    returned vex b (.returnFromBlock b) = if (vex.setRunningThread b).isBlocked b then none
      else ((vex.setRunningThread b).threadRegistry b).map fun thread => thread.state.timedOut := by
  simp [returned,actor,ended.registered,ended.blocked,awake,ended.position,Option.filter]

/-- The thread returns the expected answer and leaves its wait, or is suspended in it again. -/
private theorem ended_return (ended : Ended vex b expected thread) (awake : thread.state.awaken = true)
    (fits : Fits locking vex (.returnFromBlock b)) :
    returned vex b (.returnFromBlock b) = some expected ∨
      returned vex b (.returnFromBlock b) = none ∧ ∃ after, Ended (vex.returnFromBlock locking b thread) b expected after := by
  rw [returned_eq awake ended]
  obtain ⟨registered,blocked,position,suspended,notParked,answer,resumable,-⟩ := ended
  have placed : expected = false → keepsPlace vex b = true := by
    rintro rfl
    exact fits (by simp [registered,position,answer])
  -- a thread that has answered already leaves; the others are suspended with their answer
  have again : ∀ after, (vex.setRunningThread b).threadRegistry b = some after → after.blocked = true →
      Ended (vex.setRunningThread b) b expected after → ∃ after, Ended (vex.returnFromBlock locking b thread) b expected after := by
    intro after found still kept
    refine ⟨after,?_⟩
    unfold returnFromBlock
    dsimp only
    rwa [if_pos (by simp [isBlocked,found,still])]
  cases expected with
  | false =>
    obtain running | ⟨queued,still,queue⟩ := setRunningThread_placed registered (placed rfl)
    · left
      simp [isBlocked,running,VexThreadState.setRunning,VexThreadState.setNewState,VexThreadState.setAwaken,answer]
    · right
      refine ⟨by simp [isBlocked,still],again _ still rfl ?_⟩
      exact ⟨still,rfl,position,rfl,notParked,answer,resumable,.inr (queue ▸ queued)⟩
  | true =>
    obtain ⟨running,-⟩ | ⟨queued,still,queue⟩ | ⟨back,queue⟩ := setRunningThread_cases registered
    · left
      simp [isBlocked,running,VexThreadState.setRunning,VexThreadState.setNewState,VexThreadState.setAwaken,answer]
    · right
      refine ⟨by simp [isBlocked,still],again _ still rfl ?_⟩
      exact ⟨still,rfl,position,rfl,notParked,answer,resumable,.inr (queue ▸ queued)⟩
    · right
      refine ⟨by simp [isBlocked,back,pushed],again _ back rfl ?_⟩
      exact ⟨back,rfl,position,rfl,notParked,rfl,by simp,.inr (by simp [queue])⟩

/-! ## Steps -/

/-- A blocked thread is interrupted, unparked, popped or returns; it calls nothing. -/
private theorem event_of_blocked {event : Event} (registered : vex.threadRegistry b = some thread)
    (blocked : thread.blocked = true) (own : event.thread = some b) (stepped : vex.step locking event = some next) :
    event = .interrupt b ∨ event = .unpark b ∨ (∃ manager leapIsValid, event = .continueThread manager b leapIsValid) ∨
      event = .returnFromBlock b := by
  have notFree : thread.isFree = false := by simp [Thread.isFree,blocked]
  have notOutside : thread.isOutside = false := by simp [Thread.isOutside,notFree]
  cases event with
  | signal manager objectId | broadcast manager objectId => cases own
  | interrupt t =>
    cases own
    exact .inl rfl
  | unpark t =>
    cases own
    exact .inr (.inl rfl)
  | continueThread manager t leapIsValid =>
    cases own
    exact .inr (.inr (.inl ⟨manager,leapIsValid,rfl⟩))
  | returnFromBlock t =>
    cases own
    exact .inr (.inr (.inr rfl))
  | _ =>
    cases own
    simp [Vex.step,actor,Option.filter,registered,notFree,notOutside,blocked] at stepped

private theorem inWait_of_waiting (waiting : Waiting vex b thread) : inWait vex b = true := by
  simp [inWait,waiting.registered,waiting.position]

private theorem inWait_of_ended (ended : Ended vex b expected thread) : inWait vex b = true := by
  simp [inWait,ended.registered,ended.position]

/-- A thread waits on, or its wait ends with the flag of the step. -/
private theorem waiting_step {event : Event} (waiting : Waiting vex b thread) (fits : Fits locking vex event)
    (stepped : vex.step locking event = some next) :
    (∃ after, Waiting next b after) ∧ event ≠ .interrupt b ∨ (∃ after, Ended next b (reports b event) after) ∧
      (event = .interrupt b → b ∈ next.runnableThreads) := by
  by_cases own : event.thread = some b
  · obtain rfl | rfl | ⟨manager,leapIsValid,rfl⟩ | rfl :=
      event_of_blocked waiting.registered waiting.blocked own stepped
    · cases stepped
      have fitsHere : isTimed thread.position = true ∧ thread.state.parked = false := by
        simpa [waiting.registered] using fits (waits_of_waiting waiting)
      obtain ⟨after,ended,queued⟩ := ended_of_interrupt true waiting fun _ => fitsHere
      have reported : reports b (.interrupt b) = false := by simp [reports]
      exact .inr ⟨⟨after,reported ▸ ended⟩,fun _ => queued⟩
    · simp only [Vex.step,waiting.registered,Option.some.injEq] at stepped
      subst stepped
      exact .inl ⟨waiting_unpark waiting,by simp⟩
    · obtain still | ended := signalled_continue waiting stepped
      · exact .inl ⟨still,by simp⟩
      · exact .inr ⟨ended,by rintro ⟨⟩⟩
    · simp [Vex.step,actor,Option.filter,waiting.registered,waiting.asleep] at stepped
  · have others : Signalled next b := others_keep signalled_of_keeps signalled_interruptThread (.inl ⟨thread,waiting⟩)
      (inWait_of_waiting waiting) fits own stepped
    have notInterrupted : event ≠ .interrupt b := by
      rintro rfl
      exact own rfl
    obtain still | ⟨after,ended⟩ := others
    · exact .inl ⟨still,notInterrupted⟩
    · have reported : reports b event = true := by simp [reports,notInterrupted]
      exact .inr ⟨⟨after,reported ▸ ended⟩,fun same => absurd same notInterrupted⟩

/-- Until it returns, the thread keeps its answer. -/
private theorem ended_step {event : Event} (ended : Ended vex b expected thread) (fits : Fits locking vex event)
    (unanswered : returned vex b event = none) (stepped : vex.step locking event = some next) :
    ∃ after, Ended next b expected after := by
  by_cases own : event.thread = some b
  · obtain rfl | rfl | ⟨manager,leapIsValid,rfl⟩ | rfl := event_of_blocked ended.registered ended.blocked own stepped
    · cases stepped
      rw [ended_interruptThread true ended]
      exact ⟨thread,ended⟩
    · simp only [Vex.step,ended.registered,Option.some.injEq] at stepped
      subst stepped
      exact ended_unpark ended
    · obtain ⟨after,still,-⟩ := ended_continue ended stepped
      exact ⟨after,still⟩
    · cases awake : thread.state.awaken with
      | false => simp [Vex.step,actor,Option.filter,ended.registered,awake] at stepped
      | true =>
        rw [stepped_return awake ended,Option.some.injEq] at stepped
        subst stepped
        obtain answered | ⟨-,again⟩ := ended_return ended awake fits
        · rw [answered] at unanswered
          cases unanswered
        · exact again
  · have kept : ∀ {vex next : Vex Locks}, Keeps b vex next → (∃ thread, Ended vex b expected thread) →
        ∃ thread, Ended next b expected thread := by
      rintro vex next keeps ⟨thread,ended⟩
      exact ⟨thread,ended_of_keeps keeps ended⟩
    refine others_keep kept ?_ ⟨thread,ended⟩ (inWait_of_ended ended) fits own stepped
    rintro vex t ⟨thread,ended⟩
    by_cases same : b = t
    · subst same
      rw [ended_interruptThread false ended]
      exact ⟨thread,ended⟩
    · exact kept (interruptThread_keeps false same) ⟨thread,ended⟩

/-! ## The start of a wait -/

private def Outside (vex : Vex Locks) (b : Int64) : Prop :=
  ∀ thread, vex.threadRegistry b = some thread → isReplacedWait thread.position = false

private theorem outside_onState (f : VexThreadState → VexThreadState) (outside : Outside vex b) :
    Outside (vex.onState b f) b := by
  intro after found
  cases registered : vex.threadRegistry b with
  | none => simp [onState,onThread,registered] at found
  | some thread =>
    rw [onState_self _ registered] at found
    cases found
    exact outside thread registered

private theorem outside_robust (b : Int64) : Robust b fun vex : Vex Locks => Outside vex b where
  kept := fun keeps outside thread found => outside thread (keeps.thread ▸ found)
  interrupted := by
    intro vex outside after found
    cases registered : vex.threadRegistry b with
    | none =>
      rw [interrupt_absent registered,registered] at found
      cases found
    | some thread =>
      rw [interrupt_thread registered] at found
      cases found
      exact outside thread registered
  flagged := fun timedOut outside => outside_onState _ outside

private theorem outside_of_position {after : Thread} (outside : Outside vex b) (registered : vex.threadRegistry b = some thread)
    (found : next.threadRegistry b = some after) (position : after.position = thread.position) : Outside next b := by
  intro other foundToo
  rw [found] at foundToo
  cases foundToo
  rw [position]
  exact outside thread registered

private theorem waiting_of_timedWait (objectId timeout : Int64) (position : Position)
    (registered : vex.threadRegistry b = some thread) (timed : isTimed position = true) (positive : 0 < timeout)
    (inside : isReplacedWait position = true) :
    ∃ after, Waiting (vex.onReplacedTimedWaitingStart b objectId timeout position) b after := by
  have started := onReplacedTimedWaiting_self (setPosition_self position (onState_self (fun state =>
    (state.onVexEntry.setWaitingObjectId objectId).setTimedWaiting timeout) registered))
  refine ⟨_,started,rfl,inside,rfl,rfl,fun _ => ⟨positive,rfl,?_⟩,fun untimed => ?_⟩
  · simp [onReplacedTimedWaitingStart,onReplacedTimedWaiting,setTimedWaitingThread,onBlockedWaitingInVex,onState,setBlocked,
      onThread,pushRunnable]
  · simp [timed] at untimed

private theorem waiting_of_wait (objectId : Int64) (registered : vex.threadRegistry b = some thread) :
    ∃ after, Waiting (vex.onReplacedWaitingStart b objectId true) b after := by
  have started := onReplacedWaiting_self (setPosition_self (.replacedWaiting objectId true) (onState_self
    (fun state => state.setTimeout (-2)) (onState_self (fun state =>
      ((state.onVexEntry.setTimedOut true).setWaitingObjectId objectId).setWaiting) registered)))
  exact ⟨_,started,rfl,rfl,rfl,rfl,nofun,fun _ => .inr rfl⟩

/-- A thread that returns to no wait is in none. -/
private theorem outside_return (outside : Outside vex b) (registered : vex.threadRegistry b = some thread) :
    Outside (vex.returnFromBlock locking b thread) b := by
  obtain ⟨suspended,found,position⟩ := setRunningThread_position registered
  have still : Outside (vex.setRunningThread b) b := outside_of_position outside registered found position
  have exits : Outside ((vex.setRunningThread b).onVexExit b) b := by
    intro after left
    rw [onVexExit_position left]
    rfl
  unfold returnFromBlock
  dsimp only
  split_ifs
  · exact still
  · cases at' : thread.position with
    | outside | sleeping | requestingLock lockId => exact exits
    | registered objectId updateLockRegistry | parking => exact still
    | replacedWaiting objectId updateLockRegistry =>
      have notInternal : isReplacedWait thread.position = false := outside thread registered
      rw [at'] at notInternal
      have external : updateLockRegistry = false := notInternal
      subst external
      exact exits
    | replacedTimedWaiting objectId updateLockRegistry =>
      have notInternal : isReplacedWait thread.position = false := outside thread registered
      rw [at'] at notInternal
      cases notInternal

/-- Only the start of a wait takes a thread into it. -/
private theorem outside_step {event : Event} (outside : Outside vex b) (fits : Fits locking vex event)
    (stepped : vex.step locking event = some next) : Outside next b ∨ ∃ after, Waiting next b after := by
  by_cases own : event.thread = some b
  · cases event with
    | spawn t manager timedWaitingObjectId suspends =>
      cases own
      simp only [Vex.step,Option.ite_none_right_eq_some,Option.some.injEq] at stepped
      obtain ⟨-,rfl⟩ := stepped
      have added : (vex.setThread b (some {
          state := .init timedWaitingObjectId
          threadCurrentlyControllingManager := manager
          blocked := false
          position := .outside })).threadRegistry b = some _ := Function.update_self ..
      obtain ⟨spawned,found,position⟩ := suspendCurrentThread_position suspends added
      left
      intro after registered
      rw [onThreadSpawn,found] at registered
      cases registered
      rw [position]
      rfl
    | ended t =>
      cases own
      obtain ⟨thread,-,rfl⟩ := Option.map_eq_some_iff.mp stepped
      left
      intro after registered
      simp [onThreadEnd,setThread] at registered
    | suspend t =>
      cases own
      simp only [Vex.step,Option.ite_none_right_eq_some] at stepped
      obtain ⟨thread,acting,rfl⟩ := Option.map_eq_some_iff.mp stepped.2
      have registered := (actor_eq acting).1
      exact .inl (outside_of_position outside registered (suspendThread_self registered) rfl)
    | suspendLoose t =>
      cases own
      obtain ⟨thread,acting,rfl⟩ := Option.map_eq_some_iff.mp stepped
      have registered := (actor_eq acting).1
      obtain ⟨suspended,found,position⟩ :=
        suspendLooseCurrentThread_position (onState_self VexThreadState.onVexEntry registered)
      exact .inl (outside_of_position outside registered found position)
    | register t objectId updateLockRegistry =>
      cases own
      obtain ⟨thread,-,rfl⟩ := Option.map_eq_some_iff.mp stepped
      left
      intro after registered
      rw [position_of_set (.registered objectId updateLockRegistry) registered]
      rfl
    | wait t =>
      cases own
      obtain ⟨thread,acting,started⟩ := Option.bind_eq_some_iff.mp stepped
      have registered := (actor_eq acting).1
      split at started
      · rename_i objectId updateLockRegistry announced
        cases started
        cases updateLockRegistry with
        | true => exact .inr (waiting_of_wait objectId registered)
        | false =>
          have waiting := onReplacedWaiting_self (setPosition_self (.replacedWaiting objectId false) (onState_self
            (fun state => ((state.onVexEntry.setTimedOut true).setWaitingObjectId objectId).setWaiting) registered))
          left
          intro after found
          rw [onReplacedWaitingStart,if_neg (by simp),waiting] at found
          cases found
          rfl
      · cases started
    | timedWait t timeout nanoTimeout =>
      cases own
      obtain ⟨thread,acting,started⟩ := Option.bind_eq_some_iff.mp stepped
      split at started
      · cases started
        exact .inr (waiting_of_timedWait _ _ _ (actor_eq acting).1 rfl fits rfl)
      · cases started
    | sleep t timeout nanoTimeout =>
      cases own
      obtain ⟨thread,acting,rfl⟩ := Option.map_eq_some_iff.mp stepped
      exact .inr (waiting_of_timedWait _ _ _ (actor_eq acting).1 rfl fits rfl)
    | requestLock t lockId =>
      cases own
      obtain ⟨thread,-,rfl⟩ := Option.map_eq_some_iff.mp stepped
      left
      intro after found
      obtain position | position := requestLock_position lockId found
      · rw [position]
        rfl
      · rw [position]
        rfl
    | releaseLock t lockId =>
      cases own
      obtain ⟨thread,-,rfl⟩ := Option.map_eq_some_iff.mp stepped
      have unlocked : Outside (vex.setLocks (locking.releaseAndGetNext vex.lockRegistry lockId).2) b := outside
      left
      unfold onLocklessReleasingLock
      dsimp only
      split
      · exact (outside_robust b).interrupt _ (outside_onState _ unlocked)
      · exact unlocked
    | park t timeout =>
      cases own
      obtain ⟨thread,acting,rfl⟩ := Option.map_eq_some_iff.mp stepped
      left
      intro after found
      rw [onPark_position timeout (actor_eq acting).1 found]
      rfl
    | parked t suspends =>
      cases own
      obtain ⟨thread,acting,rfl⟩ := Option.map_eq_some_iff.mp stepped
      left
      intro after found
      rw [onParked_position suspends (actor_eq acting).1 found]
      rfl
    | unpark t =>
      cases own
      left
      simp only [Vex.step] at stepped
      split at stepped
      · cases stepped
        unfold onUnpark
        dsimp only
        split_ifs
        · exact outside_onState _ (outside_onState _ outside)
        · exact outside_onState _ (outside_onState _ outside)
        · exact outside_onState _ outside
      · cases stepped
        exact outside
    | interrupt t =>
      cases stepped
      exact .inl ((outside_robust b).interruptThread t true outside)
    | continueThread manager t leapIsValid =>
      cases own
      left
      have continued : vex.continueThread b manager leapIsValid = some next := stepped
      cases registered : vex.threadRegistry b with
      | none => simp [continueThread,registered] at continued
      | some thread =>
        obtain ⟨back,-⟩ | ⟨-,-,rfl⟩ | ⟨-,-,resumed⟩ | ⟨-,-,-,resumed⟩ := continueThread_cases registered continued
        · exact outside_of_position outside registered back rfl
        · exact outside
        · exact outside_of_position outside registered resumed rfl
        · exact outside_of_position outside registered resumed rfl
    | returnFromBlock t =>
      cases own
      obtain ⟨thread,acting,rfl⟩ := Option.map_eq_some_iff.mp stepped
      exact .inl (outside_return outside (actor_eq acting).1)
    | signal manager objectId | broadcast manager objectId => cases own
  · exact .inl ((outside_robust b).step outside own stepped)

/-! ## Runs -/

private theorem returned_cases {event : Event} {answer : Bool} (answered : returned vex b event = some answer) :
    event = .returnFromBlock b ∧ ∃ thread, vex.threadRegistry b = some thread ∧ thread.state.awaken = true ∧
      (vex.setRunningThread b).isBlocked b = false := by
  cases event with
  | returnFromBlock t =>
    rw [returned,Option.ite_none_right_eq_some] at answered
    obtain ⟨rfl,leaves⟩ := answered
    obtain ⟨thread,acting,leaves⟩ := Option.bind_eq_some_iff.mp leaves
    obtain ⟨registered,may⟩ := actor_eq acting
    rw [Bool.and_eq_true,Bool.and_eq_true] at may
    rw [Option.ite_none_left_eq_some] at leaves
    exact ⟨rfl,thread,registered,may.1.2,by simpa using leaves.1⟩
  | _ => cases answered

/-- A thread that has its answer has left the wait. -/
private theorem outside_of_returned {event : Event} {answer : Bool} (ended : Ended vex b expected thread)
    (answered : returned vex b event = some answer) (stepped : vex.step locking event = some next) : Outside next b := by
  obtain ⟨rfl,other,registered,awake,runs⟩ := returned_cases answered
  rw [ended.registered] at registered
  cases registered
  rw [stepped_return awake ended,Option.some.injEq] at stepped
  subst stepped
  exact fun after found => left_of_running ended.position runs found

private def Phased (vex : Vex Locks) (b : Int64) : Prop :=
  Outside vex b ∨ (∃ thread, Waiting vex b thread) ∨ ∃ expected thread, Ended vex b expected thread

private theorem phased_step {event : Event} (phased : Phased vex b) (fits : Fits locking vex event)
    (stepped : vex.step locking event = some next) : Phased next b := by
  obtain outside | ⟨thread,waiting⟩ | ⟨expected,thread,ended⟩ := phased
  · obtain still | started := outside_step outside fits stepped
    · exact .inl still
    · exact .inr (.inl started)
  · obtain ⟨still,-⟩ | ⟨ended,-⟩ := waiting_step waiting fits stepped
    · exact .inr (.inl still)
    · exact .inr (.inr ⟨_,ended⟩)
  · cases answered : returned vex b event with
    | none => exact .inr (.inr ⟨expected,ended_step ended fits answered stepped⟩)
    | some answer => exact .inl (outside_of_returned ended answered stepped)

private theorem phased_run {locks : Locks} {events : List Event} (b : Int64)
    (meets : Meets (Vex.step locking) (Fits locking) (Vex.start locks) events)
    (executed : run (Vex.step locking) (Vex.start locks) events = some vex) : Phased vex b := by
  have started : Phased (Vex.start locks) b := .inl fun thread found => by cases found
  exact invariant_of_meets (fun _ _ _ phased fits stepped => phased_step phased fits stepped) started meets executed

/-- The last step: the pop and the return of a thread whose wait has ended. -/
private theorem answered_of_ended (ended : Ended vex b expected thread) :
    (isAwake vex b = true ∨ b ∈ vex.runnableThreads) ∧
    (∀ manager leapIsValid next, vex.continueThread b manager leapIsValid = some next → isAwake next b = true) ∧
    (isAwake vex b = true → vex.runningThread (vex.managerOf b) = none →
      returned vex b (.returnFromBlock b) = some expected) ∧
    ∀ event answer, Fits locking vex event → returned vex b event = some answer → answer = expected := by
  have awakeHere : isAwake vex b = thread.state.awaken := by simp [isAwake,ended.registered]
  refine ⟨awakeHere ▸ ended.queued,?_,?_,?_⟩
  · intro manager leapIsValid next continued
    obtain ⟨after,still,awake⟩ := ended_continue ended continued
    simp [isAwake,still.registered,awake]
  · intro awake idle
    rw [awakeHere] at awake
    rw [returned_eq awake ended,setRunningThread_idle idle]
    simp [isBlocked,setBlocked,setRunning,onState,onThread,ended.registered,VexThreadState.setRunning,
      VexThreadState.setNewState,VexThreadState.setAwaken,ended.answer]
  · intro event answer fits answered
    obtain ⟨rfl,other,registered,awake,-⟩ := returned_cases answered
    rw [ended.registered] at registered
    cases registered
    obtain same | ⟨none,-⟩ := ended_return ended awake fits
    · rw [same,Option.some.injEq] at answered
      exact answered.symm
    · rw [none] at answered
      cases answered

private theorem answered_run (ended : Ended vex b expected thread) : Answered locking vex b expected := by
  intro events last executed fits unanswered
  have preserved : ∀ (vex : Vex Locks) (event : Event) (next : Vex Locks), (∃ after, Ended vex b expected after) →
      Fits locking vex event ∧ returned vex b event = none → vex.step locking event = some next →
        ∃ after, Ended next b expected after := by
    rintro vex event next ⟨thread,ended⟩ ⟨fits,unanswered⟩ stepped
    exact ended_step ended fits unanswered stepped
  have kept := invariant_of_meets preserved ⟨thread,ended⟩ (meets_and fits unanswered) executed
  obtain ⟨after,still⟩ := kept
  exact answered_of_ended still

end Phases

/-- Thread 1 sleeps for five milliseconds; thread 2 takes lock 7 and waits on it for one, until a signal ends
    its wait and it returns. -/
private def sleepingEvents : List Event := [.spawn 1 0 0 false,.sleep 1 5 0,.spawn 2 0 0 false,.requestLock 2 7,
  .register 2 7 true,.timedWait 2 1 0,.signal 0 7,.continueThread 0 2 false,.returnFromBlock 2]

/-- Thread 1 takes lock 7 and waits on it without a timeout. -/
private def untimedEvents : List Event := [.spawn 1 0 0 false,.requestLock 1 7,.register 1 7 true,.wait 1]

/-- Thread 2 starts between the resumption of thread 1 and its return. -/
private def overtakenEvents : List Event := [.continueThread 0 1 false,.spawn 2 0 0 false,.returnFromBlock 1,.ended 2,
  .continueThread 0 1 false]

end Vexjine.WaitAnswers
