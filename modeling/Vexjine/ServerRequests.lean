import Vexjine.ManagerServer

/-!
# The server's mutex

A request finds the mutex free. The programs below are followed from a free and from a
held mutex; whether a request returns with it free depends on the request alone, but
for the start of an I/O operation and its end.
-/

namespace Vexjine.ManagerServer
open Vexjine.Mutexes Vexjine.MutexTriples

set_option linter.unusedSectionVars false
variable {Thread : Type} [DecidableEq Thread]

/-! ## The helpers -/

private theorem unconditionalWakeup_leaves : Leaves (unconditionalWakeup : Program Thread Unit) false false :=
  leaves_bind leaves_lock fun _ => leaves_bind (leaves_write _) fun _ => leaves_checkedUnlock

/-- The wake-up locks the mutex itself. -/
private theorem unconditionalWakeup_stuck : Stuck (unconditionalWakeup : Program Thread Unit) true :=
  stuck_bind_first stuck_lock

private theorem conditionalWakeup_leaves (t : Thread) : Leaves (conditionalWakeup t) false false :=
  leaves_bind (leaves_read _) fun _ => leaves_ite unconditionalWakeup_leaves (leaves_pure ())

private theorem locked_leaves (change : Server Thread → Server Thread) : Leaves (locked change) false false :=
  leaves_bind leaves_lock fun _ => leaves_bind (leaves_write _) fun _ => leaves_checkedUnlock

private theorem suspendSelf_leaves (t : Thread) (options : Options) : Leaves (suspendSelf t options) true false :=
  leaves_bind (leaves_write _) fun _ => leaves_bind (leaves_write _) fun _ => leaves_checkedUnlock

private theorem suspendSelf_stuck (t : Thread) (options : Options) : Stuck (suspendSelf t options) false :=
  stuck_bind (leaves_write _) fun _ => stuck_bind (leaves_write _) fun _ => stuck_checkedUnlock

private theorem another_awaken (server : Server Thread) (t : Thread) (change : RemoteThread → RemoteThread) :
    (server.onThread t change).anotherThreadAlreadySetRunning t = server.anotherThreadAlreadySetRunning t := rfl

/-- A thread that is set running leaves the mutex as it was. -/
private theorem setRunningThread_alone {server : Server Thread} {t : Thread}
    (alone : server.anotherThreadAlreadySetRunning t = false) (held : Bool) :
    ∃ next, setRunningThread t ⟨server,held⟩ = some ((),⟨next,held⟩) := by
  simp [setRunningThread,Server.changeThreadStateToRunning,another_awaken,alone]

/-- Where another thread runs, the thread suspends itself. -/
private theorem setRunningThread_other {server : Server Thread} {t : Thread}
    (other : server.anotherThreadAlreadySetRunning t = true) : setRunningThread t ⟨server,false⟩ = none := by
  simp [setRunningThread,Server.changeThreadStateToRunning,another_awaken,other]
  exact suspendSelf_stuck t _ _

/-- Each branch ends with an unlock, and no branch has locked the mutex. -/
private theorem keepRunning_stuck (t : Thread) (options : Options) : Stuck (keepRunning t options) false := by
  apply stuck_bind (leaves_read _)
  intro changed
  apply stuck_ite
  · intro server
    rw [run_bind]
    cases other : server.anotherThreadAlreadySetRunning t with
    | true =>
      rw [setRunningThread_other other]
      rfl
    | false =>
      obtain ⟨next,ran⟩ := setRunningThread_alone other false
      rw [ran]
      exact stuck_bind (leaves_write _) (fun _ => stuck_bind (leaves_write _) fun _ => stuck_checkedUnlock) next
  · exact stuck_bind (leaves_write _) fun _ => stuck_checkedUnlock

private theorem keepRunning_alone {server : Server Thread} {t : Thread}
    (alone : server.anotherThreadAlreadySetRunning t = false) (options : Options) :
    ∃ next, keepRunning t options ⟨server,true⟩ = some ((),⟨next,false⟩) := by
  by_cases same : server.runningThread = some t
  · exact ⟨_,by simp [keepRunning,same]; rfl⟩
  · obtain ⟨next,ran⟩ := setRunningThread_alone alone true
    exact ⟨_,by simp [keepRunning,same,ran]; rfl⟩

/-- The test leaves the mutex alone, and a thread that it lets run finds no other one running. -/
private theorem mustSuspend_answers (t : Thread) (options : Options) (server : Server Thread) (held : Bool) :
    ∃ suspends next, mustSuspend t options ⟨server,held⟩ = some (suspends,⟨next,held⟩) ∧
      (suspends = false → next.anotherThreadAlreadySetRunning t = false) := by
  by_cases forced : options.forceSuspend ∧ server.runnableThreads ≠ []
  · exact ⟨true,server,by simp [mustSuspend,forced],by simp⟩
  · refine ⟨_,_,by simp [mustSuspend,forced]; exact ⟨rfl,rfl⟩,?_⟩
    intro runs
    simp only [Server.shouldCurrentThreadSuspend,Bool.or_eq_false_iff] at runs
    exact runs.1.2

/-- The mutex is expected held, and is unlocked once. -/
private theorem suspendCurrentThread_leaves (t : Thread) (startingTime : Int) (options : Options) :
    Leaves (suspendCurrentThread t startingTime options) true false := by
  apply leaves_bind (leaves_write _)
  intro updated server
  obtain ⟨suspends,next,tested,alone⟩ := mustSuspend_answers t options server true
  rw [run_bind,tested]
  cases suspends with
  | true => exact suspendSelf_leaves t options next
  | false =>
    obtain ⟨final,ran⟩ := keepRunning_alone (alone rfl) options
    exact ⟨(),final,ran⟩

/-- Called with the mutex free, it unlocks a mutex that nobody has locked. -/
private theorem suspendCurrentThread_stuck (t : Thread) (startingTime : Int) (options : Options) :
    Stuck (suspendCurrentThread t startingTime options) false := by
  apply stuck_bind (leaves_write _)
  intro updated server
  obtain ⟨suspends,next,tested,_⟩ := mustSuspend_answers t options server false
  rw [run_bind,tested]
  cases suspends with
  | true => exact suspendSelf_stuck t options next
  | false => exact keepRunning_stuck t options next

private theorem onThread_threads (server : Server Thread) (t : Thread) (change : RemoteThread → RemoteThread) :
    (server.onThread t change).threads t = change (server.threads t) := by
  simp [Server.onThread]

private theorem onTimers_timeScalingFactor (server : Server Thread) (t : Thread)
    (change : ThreadTimers.Timers → ThreadTimers.Timers) :
    ((server.onTimers t change).threads t).timeScalingFactor = (server.threads t).timeScalingFactor := by
  rw [Server.onTimers,onThread_threads]
  rfl

private theorem updateCurrentThreadVT_timeScalingFactor (server : Server Thread) (t : Thread) :
    ((server.updateCurrentThreadVT t).threads t).timeScalingFactor = (server.threads t).timeScalingFactor := by
  rw [Server.updateCurrentThreadVT,onThread_threads]
  split
  · rw [Server.locklessUpdateTimeBy]
    split <;> simp [Server.onTimeline,onThread_threads,RemoteThread.setTimers]
  · rfl

/-! ## The start and the end of an I/O operation -/

/-- The part of a start after the suspension of a delayed thread. -/
private theorem blockInIo_leaves (t : Thread) (learning : Bool) :
    Leaves (do
      write fun server => server.setIoThread t learning
      write fun server => { server with pendingIoCalls := server.pendingIoCalls + 1 }
      conditionalWakeup t : Program Thread Unit) false false :=
  leaves_bind (leaves_write _) fun _ => leaves_bind (leaves_write _) fun _ => conditionalWakeup_leaves t

/-- The times of a thread whose operation is predicted to take this long. -/
private def Server.predicted (server : Server Thread) (t : Thread) (prediction : Int) : Server Thread :=
  ((server.onThread t fun thread => { thread with lastIoPrediction := prediction }).updateCurrentThreadVT t).onTimers t
    fun timers => timers.addElapsedTime prediction

/-- The suspension of a delayed thread unlocks the mutex, that is free then. -/
private theorem startIo_disciplined_iff (t : Thread) (prediction : Int) (server : Server Thread) :
    Disciplined (startIo t prediction) server ↔ prediction = 0 ∨ (server.threads t).timeScalingFactor ≤ 1 := by
  by_cases learns : prediction = 0
  · refine ⟨fun _ => Or.inl learns,fun _ => ?_⟩
    apply disciplined_of_leaves
    apply leaves_bind (leaves_write _)
    intro updated
    simp only [learns,ne_eq,not_true_eq_false,if_false]
    exact blockInIo_leaves t true
  · by_cases delayed : 1 < (server.threads t).timeScalingFactor
    · have stuck : ∀ predicted, suspendCurrentThread t 0 { dontUpdateThreadTime := true,forceSuspend := true }
          ⟨predicted,false⟩ = none := suspendCurrentThread_stuck t 0 _
      refine iff_of_false (not_disciplined_of_stuck ?_) (by simpa [learns] using delayed)
      simp [startIo,learns,delayed,onTimers_timeScalingFactor,updateCurrentThreadVT_timeScalingFactor,onThread_threads,stuck]
    · refine iff_of_true ?_ (Or.inr (not_lt.mp delayed))
      obtain ⟨result,after,ran⟩ := blockInIo_leaves t false (server.predicted t prediction)
      refine ⟨result,after,?_⟩
      rw [← ran]
      simp [startIo,learns,delayed,onTimers_timeScalingFactor,updateCurrentThreadVT_timeScalingFactor,onThread_threads,
        Server.predicted]

/-- The part of the end of an operation after its thread has been suspended. -/
private def writeTimes (t : Thread) : Program Thread Unit := do
  let thread ← read fun server => server.threads t
  if thread.isManagedLocally then pure ()
  else
    locked fun server =>
      server.serverMessageWrite thread.threadResponseFd (.times server.cpuTime thread.timers.estimatedRealTime)

private theorem writeTimes_leaves (t : Thread) : Leaves (writeTimes t) false false :=
  leaves_bind (leaves_read _) fun _ => leaves_ite (leaves_pure ()) (locked_leaves _)

/-- The end of an operation that its thread does not perform. -/
private theorem recovery_leaves (t : Thread) :
    Leaves (do
      lock
      write fun server => server.onThread t fun thread => thread.leapToGlobalTime server.getGlobalTime
      let inList ← read fun server => decide (t ∈ server.runnableThreads)
      suspendCurrentThread t 0 { forceSuspend := true,dontUpdateThreadTime := true,threadAlreadyInList := inList }
      writeTimes t : Program Thread Unit) false false := by
  apply leaves_bind leaves_lock
  intro locked
  apply leaves_bind (leaves_write _)
  intro leapt
  apply leaves_bind (leaves_read _)
  intro inList
  exact leaves_bind (suspendCurrentThread_leaves t 0 _) fun _ => writeTimes_leaves t

private theorem endIo_stuck {t : Thread} {server : Server Thread} (performs : (server.threads t).inIo = true)
    (actualIoDuration : Int) : endIo t actualIoDuration ⟨server,false⟩ = none := by
  rw [RemoteThread.inIo,Bool.or_eq_true] at performs
  cases learns : (server.threads t).inIoLearningPhase with
  | true => simp [endIo,learns,suspendCurrentThread_stuck t 0 _ _]
  | false =>
    have predicts : (server.threads t).inIoPredictionPhase = true := by simpa [learns] using performs
    simp [endIo,learns,predicts,suspendCurrentThread_stuck t 0 _ _]

/-- An operation that is still performed makes its thread suspend itself without the mutex. -/
private theorem onThreadIoEnd_disciplined_iff (t : Thread) (actualIoDuration : Int) (server : Server Thread) :
    Disciplined (onThreadIoEnd t actualIoDuration) server ↔ (server.threads t).inIo = false := by
  rw [onThreadIoEnd]
  cases performs : (server.threads t).inIo with
  | true =>
    refine iff_of_false (not_disciplined_of_stuck ?_) (by simp)
    simp [performs,endIo_stuck performs]
  | false =>
    refine iff_of_true ?_ rfl
    obtain ⟨result,after,ran⟩ := recovery_leaves t server
    refine ⟨result,after,?_⟩
    rw [← ran]
    simp [performs,writeTimes,locked]

/-! ## Requests -/

/-- A wait does not start, a thread does not ask to be suspended, an operation is not started
    by a delayed thread and does not end while its thread performs it. -/
def Request.Fits (request : Request Thread) (server : Server Thread) : Prop :=
  match request with
  | .threadWaitingStart _ _ | .threadTimedWaitingStart _ _ | .threadContendedEnter _ _
  | .trySuspendCurrentThread _ _ _ => False
  | .ioStart t _ prediction => prediction = 0 ∨ (server.threads t).timeScalingFactor ≤ 1
  | .ioEnd t _ => (server.threads t).inIo = false
  | _ => True

instance (request : Request Thread) (server : Server Thread) : Decidable (request.Fits server) := by
  unfold Request.Fits
  split <;> infer_instance

/-- The start of a wait, whose wake-up locks the mutex a second time. -/
private theorem waitingStart_stuck (change : Server Thread → Server Thread) :
    Stuck (do lock; write change; unconditionalWakeup; checkedUnlock : Program Thread Unit) false :=
  stuck_bind leaves_lock fun _ => stuck_bind (leaves_write _) fun _ => stuck_bind_first unconditionalWakeup_stuck

/-- The server finds and leaves its mutex free with the requests that fit and with no other. -/
theorem serviceClientRequest_disciplined_iff (clientSockFd : Nat) (request : Request Thread) (server : Server Thread) :
    Disciplined (serviceClientRequest clientSockFd request) server ↔ request.Fits server := by
  cases request with
  | threadWaitingStart t timestamp => exact iff_of_false (not_disciplined_of_stuck' (waitingStart_stuck _) server) id
  | threadTimedWaitingStart t timestamp =>
    exact iff_of_false (not_disciplined_of_stuck' (waitingStart_stuck _) server) id
  | threadContendedEnter t timestamp => exact iff_of_false (not_disciplined_of_stuck' (waitingStart_stuck _) server) id
  | trySuspendCurrentThread t timestamp options =>
    refine iff_of_false (not_disciplined_of_stuck' ?_ server) id
    exact stuck_bind (leaves_write _) fun _ => suspendCurrentThread_stuck t timestamp options
  | ioStart t timestamp prediction =>
    show Disciplined (write _ >>= fun _ => startIo t prediction) server ↔ _
    rw [disciplined_write_bind,startIo_disciplined_iff,onThread_threads,Request.Fits]
  | ioEnd t actualIoDuration => exact onThreadIoEnd_disciplined_iff t actualIoDuration server
  | notifySchedulerForVt t virtualTimeSpeedup =>
    refine iff_of_true (disciplined_of_leaves ?_ server) trivial
    exact leaves_bind (leaves_write _) fun _ => unconditionalWakeup_leaves
  | threadEnd t =>
    refine iff_of_true (disciplined_of_leaves ?_ server) trivial
    apply leaves_bind (locked_leaves _)
    intro ended
    apply leaves_bind (leaves_write _)
    intro removed
    exact leaves_bind (leaves_read _) fun _ => leaves_ite (locked_leaves _) (leaves_pure ())
  | wakeup | conditionalWakeup | unconditionalWakeup | setIoThread | progressTimeBy | terminate | other =>
    exact iff_of_true (disciplined_of_leaves (leaves_pure ()) server) trivial
  | addNewThreadState | timedWaitingEnd | threadWasInterrupted | threadBeforeYield | setRunning | setGlobalTimeToThreadTime =>
    exact iff_of_true (disciplined_of_leaves (locked_leaves _) server) trivial
  | _ =>
    refine iff_of_true (disciplined_of_leaves ?_ server) trivial
    exact fun _ => ⟨(),_,rfl⟩

/-- A server with two threads of one client, of which one runs. -/
def oneClient : Server Bool where
  threads t := { currentState := if t then .running else .suspended,hasControllingManager := t,managingSchedulerFd := 4 }
  registry := [true,false]
  runningThread := some true
  runnableThreads := [false]

/-- The running thread starts a wait, and the server waits for its own mutex; the thread asks
    whether it has to be suspended, and the server unlocks a mutex that it has not locked. -/
theorem wait_locks_twice_and_suspension_unlocks_free :
    serviceClientRequest 3 (.threadWaitingStart true 100) ⟨oneClient,false⟩ = none ∧
      serviceClientRequest 3 (.trySuspendCurrentThread true 100 {}) ⟨oneClient,false⟩ = none ∧
      ¬ Disciplined (serviceClientRequest 3 (.threadWaitingStart true 100)) oneClient ∧
      ¬ Disciplined (serviceClientRequest 3 (.trySuspendCurrentThread true 100 {})) oneClient := by
  have waits : serviceClientRequest 3 (.threadWaitingStart true 100) ⟨oneClient,false⟩ = none := waitingStart_stuck _ _
  have suspends : serviceClientRequest 3 (.trySuspendCurrentThread true 100 {}) ⟨oneClient,false⟩ = none :=
    suspendCurrentThread_stuck true 100 {} _
  exact ⟨waits,suspends,not_disciplined_of_stuck waits,not_disciplined_of_stuck suspends⟩

end Vexjine.ManagerServer
